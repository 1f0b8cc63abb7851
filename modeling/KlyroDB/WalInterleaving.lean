import KlyroDB.GuardedRuns
import KlyroDB.SegmentContents

/-!
# Appends and flushes of several threads

The sections of `append` and `execute_flush` under one hold of a mutex are the
steps of the threads.  An append that finds the buffer full gives the append
mutex back for its flush; a flush gives it back after the buffers are swapped
and keeps the flush mutex until its write ends.
-/

namespace KlyroDB

open Function (update_of_ne update_self)
open ByteMemory

namespace WALManager

def swapBuffers (manager : WALManager) : WALManager :=
  { manager with buffer := manager.flushBuffer, flushBuffer := manager.buffer }

/-- The stream of the segment is flushed when the segment is closed for the
next one, and after the write. -/
def writeSwapped (manager : WALManager) (io : FlushIO) (closing writing : StreamFlush) :
    WALManager × Except WALError Unit :=
  match manager.rollSegmentIfNeeded io.opens closing with
  | (rolled, .error error) => (rolled, .error error)
  | (rolled, .ok _) => rolled.writeFlushBuffer io.write writing

theorem executeFlush_eq (manager : WALManager) (io : FlushIO) :
    manager.executeFlush io =
      if manager.buffer.isEmpty then (manager, .ok ())
      else manager.swapBuffers.writeSwapped io .succeeds .succeeds :=
  rfl

def logBytes (manager : WALManager) : List UInt8 :=
  (List.range (manager.segmentId + 1)).flatMap manager.recordBytes

def NothingBeyond (manager : WALManager) : Prop :=
  ∀ id, manager.segmentId < id → manager.recordBytes id = []

theorem flatMap_range_beyond {bytes : Nat → List UInt8} {small large : Nat}
    (smaller : small ≤ large) (beyond : ∀ id, small < id → bytes id = []) :
    (List.range (large + 1)).flatMap bytes = (List.range (small + 1)).flatMap bytes := by
  induction large, smaller using Nat.le_induction with
  | base => rfl
  | succ large smaller ih =>
    rw [List.range_succ, List.flatMap_append, ih, List.flatMap_singleton,
      beyond (large + 1) (Nat.lt_succ_of_le smaller), List.append_nil]

variable {before after : WALManager}

theorem Rolled.logBytes (rolled : Rolled before after)
    (beyond : before.NothingBeyond) : after.logBytes = before.logBytes := by
  unfold WALManager.logBytes
  rw [funext rolled.bytes]
  exact flatMap_range_beyond rolled.later beyond

theorem Rolled.nothingBeyond (rolled : Rolled before after)
    (beyond : before.NothingBeyond) : after.NothingBeyond := by
  intro id above
  rw [rolled.bytes]
  exact beyond id (lt_of_le_of_lt rolled.later above)

theorem Wrote.logBytes (wrote : Wrote before after) :
    after.logBytes = before.logBytes ++ before.flushBuffer := by
  have earlier : (List.range before.segmentId).flatMap after.recordBytes =
      (List.range before.segmentId).flatMap before.recordBytes := by
    apply List.flatMap_congr
    intro id mem
    exact wrote.elsewhere id (List.mem_range.mp mem).ne
  unfold WALManager.logBytes
  rw [wrote.segmentId, List.range_succ, List.flatMap_append, List.flatMap_append, earlier,
    List.flatMap_singleton, List.flatMap_singleton, wrote.here, List.append_assoc]

theorem Wrote.nothingBeyond (wrote : Wrote before after)
    (beyond : before.NothingBeyond) : after.NothingBeyond := by
  intro id above
  rw [wrote.segmentId] at above
  rw [wrote.elsewhere id above.ne']
  exact beyond id above

end WALManager

inductive WALThread
  | idle
  /-- in `append`, before the flush of the full buffer -/
  | full (record : LogRecord)
  /-- holds the flush mutex; `append` goes on with the record afterwards -/
  | flushing (next : Option LogRecord)
  /-- in `append`, after the flush -/
  | retry (record : LogRecord)
  deriving DecidableEq, Repr

namespace WALThread

/-- The record that has its LSN but is not in the buffer yet. -/
def waiting : WALThread → Option LogRecord
  | .idle => none
  | .full record => some record
  | .flushing next => next
  | .retry record => some record

def resumed : Option LogRecord → WALThread
  | none => .idle
  | some record => .retry record

@[simp]
theorem waiting_resumed (next : Option LogRecord) : (resumed next).waiting = next := by
  cases next <;> rfl

end WALThread

inductive WALSection
  | append (thread : Nat) (record : LogRecord)
  | swap (thread : Nat)
  | write (thread : Nat) (io : FlushIO) (closing writing : StreamFlush)
  | retry (thread : Nat)
  deriving DecidableEq, Repr

structure WALThreads where
  manager : WALManager
  threads : Nat → WALThread := fun _ => .idle
  flushMutex : Option Nat := none
  appended : List LogRecord := []

namespace WALThreads

def moveTo (system : WALThreads) (thread : Nat) (state : WALThread) : WALThreads :=
  { system with threads := Function.update system.threads thread state }

def place (system : WALThreads) (thread : Nat) (record : LogRecord)
    (otherwise : WALThread) : WALThreads :=
  match LogBuffer.append system.manager.buffer record with
  | some buffer =>
      { system with manager := { system.manager with buffer := buffer }
                    appended := system.appended ++ [record] }.moveTo thread
        .idle
  | none => system.moveTo thread otherwise

/-- The first section of a flush; the thread then holds the flush mutex,
unless there is nothing to flush. -/
def beginFlush (system : WALThreads) (thread : Nat) (next : Option LogRecord) : WALThreads :=
  if system.manager.buffer.isEmpty then
    system.moveTo thread (.resumed next)
  else
    { system with manager := system.manager.swapBuffers
                  flushMutex := some thread }.moveTo thread (.flushing next)

def endFlush (system : WALThreads) (thread : Nat)
    (next : Option LogRecord) (written : WALManager × Except WALError Unit) : WALThreads :=
  { system with manager := written.1, flushMutex := none }.moveTo thread
    (match written.2 with
      | .ok _ => .resumed next
      | .error _ => .idle)

/-- One section; a thread that cannot take it keeps waiting. -/
def step (system : WALThreads) : WALSection → WALThreads
  | .append thread record =>
      if system.threads thread = .idle then
        let numbered := { record with lsn := system.manager.nextLsn }
        { system with manager := { system.manager with
            nextLsn := system.manager.nextLsn + 1 } }.place thread numbered
          (.full numbered)
      else system
  | .swap thread =>
      if system.flushMutex = none then
        match system.threads thread with
        | .idle => system.beginFlush thread none
        | .full record => system.beginFlush thread (some record)
        | _ => system
      else system
  | .write thread io closing writing =>
      match system.threads thread with
      | .flushing next =>
          system.endFlush thread next (system.manager.writeSwapped io closing writing)
      | _ => system
  | .retry thread =>
      match system.threads thread with
      | .retry record => system.place thread record .idle
      | _ => system

/-- The segments, the buffer being flushed and the append buffer hold the
appended records one after the other, in the order of their LSNs. -/
structure InOrder (system : WALThreads) : Prop where
  bytes : system.manager.logBytes ++ system.manager.flushBuffer ++
    system.manager.buffer = system.appended.flatMap LogRecord.serialize
  increasing : system.appended.Pairwise fun first second =>
    first.lsn < second.lsn

/-- No record is numbered while another append waits, no filled buffer is
swapped in, no flush of a stream fails, and a failed write stores none of the
data. -/
def Undisturbed (system : WALThreads) : WALSection → Prop
  | .append _ _ => ∀ thread, (system.threads thread).waiting = none
  | .swap _ => system.flushMutex = none →
      system.manager.buffer = [] ∨ system.manager.flushBuffer = []
  | .write _ io closing writing =>
      closing = .succeeds ∧ writing = .succeeds ∧
        (io.write = .succeeds ∨
          system.manager.segment.size < WALManager.maxSegmentSize ∧
            io.write = .fails system.manager.segment.pending.length)
  | .retry _ => True

structure Contents (manager : WALManager) (appended : List LogRecord) : Prop where
  orderly : manager.Orderly
  beyond : manager.NothingBeyond
  bytes : manager.logBytes ++ manager.flushBuffer ++ manager.buffer =
    appended.flatMap LogRecord.serialize
  increasing : appended.Pairwise fun first second => first.lsn < second.lsn
  below : ∀ record ∈ appended, record.lsn < manager.nextLsn

structure Waits (threads : Nat → WALThread) (appended : List LogRecord) (nextLsn : Nat) : Prop where
  above : ∀ thread record, (threads thread).waiting = some record →
    (∀ early ∈ appended, early.lsn < record.lsn) ∧ record.lsn < nextLsn
  alone : ∀ first second, (threads first).waiting ≠ none →
    (threads second).waiting ≠ none → first = second

structure Ordered (system : WALThreads) : Prop where
  contents : Contents system.manager system.appended
  waits : Waits system.threads system.appended system.manager.nextLsn

variable {threads : Nat → WALThread} {appended : List LogRecord} {thread : Nat}
  {manager : WALManager} {system : WALThreads}

/-- A thread that moves without a new record leaves the others as they were. -/
theorem Waits.moveTo {nextLsn : Nat} (waits : Waits threads appended nextLsn)
    (thread : Nat) {state : WALThread} (fewer : ∀ record, state.waiting = some record →
      (threads thread).waiting = some record) :
    Waits (Function.update threads thread state) appended nextLsn := by
  have before : ∀ other record, (Function.update threads thread state other).waiting = some record →
      (threads other).waiting = some record := by
    intro other record waiting
    by_cases same : other = thread
    · subst same
      rw [update_self] at waiting
      exact fewer record waiting
    · rwa [update_of_ne same] at waiting
  constructor
  · intro other record waiting
    exact waits.above other record (before other record waiting)
  intro first second firstWaits secondWaits
  obtain ⟨record, firstRecord⟩ := Option.ne_none_iff_exists'.mp firstWaits
  obtain ⟨later, secondRecord⟩ := Option.ne_none_iff_exists'.mp secondWaits
  refine waits.alone first second ?_ ?_
  · rw [before first record firstRecord]
    exact Option.some_ne_none record
  · rw [before second later secondRecord]
    exact Option.some_ne_none later

theorem waits_of_none (nobody : ∀ thread, (threads thread).waiting = none)
    (appended : List LogRecord) (nextLsn : Nat) : Waits threads appended nextLsn := by
  constructor
  · intro thread record waiting
    rw [nobody] at waiting
    cases waiting
  · intro first second waiting _
    exact absurd (nobody first) waiting

theorem waiting_update_idle (others : ∀ other, other ≠ thread → (threads other).waiting = none)
    (other : Nat) : (Function.update threads thread .idle other).waiting = none := by
  by_cases same : other = thread
  · subst same
    rw [update_self]
    rfl
  · rw [update_of_ne same]
    exact others other same

theorem Contents.add {manager : WALManager} {appended : List LogRecord}
    (contents : Contents manager appended) {record : LogRecord}
    {buffer : List UInt8}
    (fits : LogBuffer.append manager.buffer record = some buffer)
    (above : ∀ early ∈ appended, early.lsn < record.lsn)
    (counted : record.lsn < manager.nextLsn) :
    Contents { manager with buffer := buffer } (appended ++ [record]) := by
  have bufferEq := LogBuffer.eq_of_append fits
  refine ⟨⟨contents.orderly.segment_id, contents.orderly.tidy⟩, contents.beyond, ?_, ?_, ?_⟩
  · calc
      manager.logBytes ++ manager.flushBuffer ++ buffer = (manager.logBytes ++ manager.flushBuffer
          ++ manager.buffer) ++ record.serialize := by rw [bufferEq, ← List.append_assoc]
      _ = appended.flatMap LogRecord.serialize ++ record.serialize := by
          rw [contents.bytes]
      _ = (appended ++ [record]).flatMap LogRecord.serialize := by simp
  · rw [List.pairwise_append]
    refine ⟨contents.increasing, List.pairwise_singleton _ _, ?_⟩
    intro early mem last isLast
    rw [List.mem_singleton.mp isLast]
    exact above early mem
  intro early mem
  rcases List.mem_append.mp mem with old | new
  · exact contents.below early old
  · rw [List.mem_singleton.mp new]
    exact counted

theorem Contents.count (contents : Contents manager appended) :
    Contents { manager with nextLsn := manager.nextLsn + 1 } appended :=
  ⟨⟨contents.orderly.segment_id, contents.orderly.tidy⟩, contents.beyond, contents.bytes,
    contents.increasing, fun record mem => (contents.below record mem).trans_le
    (Nat.le_succ _)⟩

theorem Contents.swapBuffers (contents : Contents manager appended)
    (oneEmpty : manager.buffer = [] ∨ manager.flushBuffer = []) :
    Contents manager.swapBuffers appended := by
  refine ⟨⟨contents.orderly.segment_id, contents.orderly.tidy⟩,
    contents.beyond, ?_, contents.increasing, contents.below⟩
  have bytes := contents.bytes
  change manager.logBytes ++ manager.buffer ++ manager.flushBuffer = _
  rcases oneEmpty with empty | empty
  · rw [empty] at bytes ⊢
    rw [List.append_nil] at bytes ⊢
    exact bytes
  · rw [empty] at bytes ⊢
    rw [List.append_nil] at bytes ⊢
    exact bytes

theorem Contents.of_rolled {before after : WALManager}
    (contents : Contents before appended) (rolled : before.Rolled after) :
    Contents after appended := by
  refine ⟨rolled.orderly, rolled.nothingBeyond contents.beyond, ?_, contents.increasing, ?_⟩
  · rw [rolled.logBytes contents.beyond, rolled.flushBuffer, rolled.buffer]
    exact contents.bytes
  · rw [rolled.nextLsn]
    exact contents.below

theorem Contents.of_wrote {before after : WALManager}
    (contents : Contents before appended) (wrote : before.Wrote after) :
    Contents after appended := by
  refine ⟨wrote.orderly, wrote.nothingBeyond contents.beyond, ?_, contents.increasing, ?_⟩
  · rw [wrote.logBytes, wrote.flushBuffer, wrote.buffer, List.append_nil]
    exact contents.bytes
  · rw [wrote.nextLsn]
    exact contents.below

theorem Contents.writeSwapped (contents : Contents manager appended)
    (io : FlushIO) (clean : io.write = .succeeds ∨
      (manager.segment.size < WALManager.maxSegmentSize ∧
        io.write = .fails manager.segment.pending.length)) :
    Contents (manager.writeSwapped io .succeeds .succeeds).1 appended ∧
      (manager.writeSwapped io .succeeds .succeeds).1.nextLsn = manager.nextLsn := by
  obtain ⟨rolls, _⟩ := contents.orderly.rollSegmentIfNeeded io.opens
  have afterRoll := contents.of_rolled rolls
  rcases clean with succeeds | ⟨small, fails⟩
  · unfold WALManager.writeSwapped
    rw [succeeds]
    split
    · rename_i rolled error result
      rw [result] at rolls afterRoll
      exact ⟨afterRoll, rolls.nextLsn⟩
    rename_i rolled result
    rw [result] at rolls afterRoll
    obtain ⟨_, _, _, wrote⟩ | ⟨_, unchanged⟩ := afterRoll.orderly.writeFlushBuffer
    · exact ⟨afterRoll.of_wrote wrote, wrote.nextLsn.trans rolls.nextLsn⟩
    · rw [unchanged]
      exact ⟨afterRoll, rolls.nextLsn⟩
  have stays : manager.rollSegmentIfNeeded io.opens = (manager, .ok ()) := by
    unfold WALManager.rollSegmentIfNeeded
    rw [if_pos small]
  have kept := contents.orderly.writeFlushBuffer_fails
  unfold WALManager.writeSwapped
  rw [stays, fails]
  exact ⟨contents.of_rolled kept, kept.nextLsn⟩

section

variable (ordered : system.Ordered)

include ordered

theorem Ordered.place {record : LogRecord} {otherwise : WALThread}
    (above : ∀ early ∈ system.appended, early.lsn < record.lsn)
    (counted : record.lsn < system.manager.nextLsn) (others : ∀ other, other ≠ thread →
      (system.threads other).waiting = none)
    (left : otherwise.waiting = none ∨ otherwise.waiting = some record) :
    (system.place thread record otherwise).Ordered := by
  unfold WALThreads.place
  split
  · rename_i buffer fits
    refine ⟨ordered.contents.add fits above counted, ?_⟩
    exact waits_of_none (waiting_update_idle others) _ _
  refine ⟨ordered.contents, ?_, ?_⟩
  · intro other waitingRecord waiting
    by_cases same : other = thread
    · subst same
      change (Function.update system.threads other otherwise other).waiting =
        some waitingRecord at waiting
      rw [update_self] at waiting
      rcases left with nothing | exactly
      · rw [nothing] at waiting
        cases waiting
      · rw [exactly, Option.some.injEq] at waiting
        subst waiting
        exact ⟨above, counted⟩
    · change (Function.update system.threads thread otherwise
        other).waiting = some waitingRecord at waiting
      rw [update_of_ne same, others other same] at waiting
      cases waiting
  have onlyThread : ∀ other, (Function.update system.threads thread otherwise other).waiting ≠
      none → other = thread := by
    intro other waiting
    by_contra ne
    rw [update_of_ne ne] at waiting
    exact waiting (others other ne)
  intro first second firstWaits secondWaits
  exact (onlyThread first firstWaits).trans (onlyThread second secondWaits).symm

theorem Ordered.beginFlush {next : Option LogRecord}
    (standing : (system.threads thread).waiting = next) (oneEmpty : system.manager.buffer = [] ∨
      system.manager.flushBuffer = []) : (system.beginFlush thread next).Ordered := by
  unfold WALThreads.beginFlush
  split_ifs with empty
  · refine ⟨ordered.contents, ordered.waits.moveTo thread ?_⟩
    intro record waiting
    rw [standing, ← waiting, WALThread.waiting_resumed]
  · refine ⟨ordered.contents.swapBuffers oneEmpty, ordered.waits.moveTo thread ?_⟩
    intro record waiting
    rw [standing, ← waiting]
    rfl

theorem Ordered.endFlush {next : Option LogRecord} {io : FlushIO} {closing writing : StreamFlush}
    (standing : (system.threads thread).waiting = next)
    (clean : system.Undisturbed (.write thread io closing writing)) :
    (system.endFlush thread next (system.manager.writeSwapped io closing writing)).Ordered := by
  obtain ⟨rfl, rfl, clean⟩ := clean
  obtain ⟨contents, sameLsn⟩ := ordered.contents.writeSwapped io clean
  refine ⟨contents, ?_⟩
  change Waits (Function.update system.threads thread _) system.appended
    (system.manager.writeSwapped io .succeeds .succeeds).1.nextLsn
  rw [sameLsn]
  apply ordered.waits.moveTo thread
  intro record waiting
  split at waiting
  · rw [standing, ← waiting, WALThread.waiting_resumed]
  · cases waiting

theorem Ordered.step (event : WALSection) (calm : system.Undisturbed event) :
    (system.step event).Ordered := by
  cases event with
  | append thread record =>
    change (if system.threads thread = .idle then _ else system).Ordered
    split_ifs with idle
    · have counted : Ordered { system with manager := { system.manager with
          nextLsn := system.manager.nextLsn + 1 } } :=
        ⟨ordered.contents.count, waits_of_none calm _ _⟩
      refine counted.place ordered.contents.below (Nat.lt_succ_self _) ?_ (.inr rfl)
      exact fun other _ => calm other
    · exact ordered
  | swap thread =>
    change (if system.flushMutex = none then _ else system).Ordered
    split_ifs with free
    · cases standing : system.threads thread with
      | idle | full record =>
        exact ordered.beginFlush (congrArg WALThread.waiting standing) (calm free)
      | flushing next | retry record => exact ordered
    · exact ordered
  | write thread io closing writing =>
    simp only [WALThreads.step]
    cases standing : system.threads thread with
    | flushing next =>
      exact ordered.endFlush (congrArg WALThread.waiting standing) calm
    | idle | full record | retry record => exact ordered
  | retry thread =>
    simp only [WALThreads.step]
    cases standing : system.threads thread with
    | retry record =>
      have waiting : (system.threads thread).waiting = some record :=
        congrArg WALThread.waiting standing
      obtain ⟨above, counted⟩ := ordered.waits.above thread record waiting
      refine ordered.place above counted ?_ (.inl rfl)
      intro other ne
      by_contra otherWaits
      refine ne (ordered.waits.alone other thread otherWaits ?_)
      rw [waiting]
      exact Option.some_ne_none record
    | idle | full record | flushing next => exact ordered

end

theorem ordered_create {mode : DurabilityMode} {opens : Bool}
    (created : WALManager.create ∅ mode opens = .ok manager) :
    Ordered { manager := manager } := by
  have headed : WALSegment.AllHeaded ∅ := fun id => .inl rfl
  obtain ⟨orderly, _, _, _, buffer, flushBuffer, bytes⟩ := WALManager.create_orderly headed created
  have nothing (id : Nat) : manager.recordBytes id = [] := by
    rw [bytes]
    rfl
  refine ⟨⟨orderly, fun id _ => nothing id, ?_, List.Pairwise.nil, by simp⟩,
    waits_of_none (fun _ => rfl) _ _⟩
  rw [buffer, flushBuffer, WALManager.logBytes]
  simp [nothing]

end WALThreads

end KlyroDB
