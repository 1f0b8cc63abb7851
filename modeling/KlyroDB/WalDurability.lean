import KlyroDB.WalManager
import Mathlib.Data.List.Induction
import Mathlib.Data.List.Infix

/-!
# Durability of the log

As long as every appended record finds room and the file system does not fail,
every record up to the flushed LSN lies in a segment file.  The LSN of a record
that finds the buffer full is counted as flushed before it is buffered.
-/

namespace KlyroDB

open WALManager (executeFlush flushUpTo maxSegmentSize)
open LogBuffer (capacity)
open LogRecord (fieldBytes getSize headerSize)
open ByteMemory

/-- The serialized record lies in one of the segment files. -/
def Written (directory : WALDirectory) (record : LogRecord) : Prop :=
  ∃ id content, directory.lookup id = some content ∧ record.serialize <:+: content

def WrittenUpTo (limit : Nat) (directory : WALDirectory) (record : LogRecord) : Prop :=
  ∃ id ≤ limit, ∃ content, directory.lookup id = some content ∧ record.serialize <:+: content

theorem written_of_writtenUpTo {limit : Nat} {directory : WALDirectory}
    {record : LogRecord} (written : WrittenUpTo limit directory record) :
    Written directory record := by
  obtain ⟨id, _, content, found, part⟩ := written
  exact ⟨id, content, found, part⟩

def OnlyAppended (limit : Nat) (before after : WALDirectory) : Prop :=
  ∀ id ≤ limit, ∀ content, before.lookup id = some content →
    ∃ more, after.lookup id = some (content ++ more)

theorem onlyAppended_refl (limit : Nat) (directory : WALDirectory) :
    OnlyAppended limit directory directory :=
  fun _ _ content found => ⟨[], by simpa using found⟩

theorem onlyAppended_trans {limit : Nat} {first second third : WALDirectory}
    (left : OnlyAppended limit first second) (right : OnlyAppended limit second third) :
    OnlyAppended limit first third := by
  intro id bound content found
  obtain ⟨more, extended⟩ := left id bound content found
  obtain ⟨rest, finished⟩ := right id bound _ extended
  exact ⟨more ++ rest, by rw [finished, List.append_assoc]⟩

theorem onlyAppended_insert_stored (limit : Nat) (directory : WALDirectory)
    (segment : WALSegment) (data : List UInt8) :
    OnlyAppended limit directory (directory.insert segment.segmentId
        (segment.stored directory ++ data)) := by
  intro id _ content found
  by_cases same : id = segment.segmentId
  · subst same
    refine ⟨data, ?_⟩
    rw [AList.lookup_insert, WALSegment.stored, found, Option.getD_some]
  · exact ⟨[], by rw [AList.lookup_insert_ne same, found, List.append_nil]⟩

theorem onlyAppended_insert_above {limit id : Nat} (above : limit < id)
    (directory : WALDirectory) (content : List UInt8) :
    OnlyAppended limit directory (directory.insert id content) := by
  intro other bound old found
  have ne : other ≠ id := by omega
  exact ⟨[], by rw [AList.lookup_insert_ne ne, found, List.append_nil]⟩

theorem writtenUpTo_of_onlyAppended {limit later : Nat}
    {before after : WALDirectory} {record : LogRecord} (written : WrittenUpTo limit before record)
    (appended : OnlyAppended limit before after) (bound : limit ≤ later) :
    WrittenUpTo later after record := by
  obtain ⟨id, small, content, found, part⟩ := written
  obtain ⟨more, extended⟩ := appended id small content found
  refine ⟨id, small.trans bound, content ++ more, extended, ?_⟩
  exact part.trans (List.prefix_append content more).isInfix

namespace WALSegment

structure Writable (segment : WALSegment) : Prop where
  isOpen : segment.isOpen = true
  writeMode : segment.writeMode = true
  good : segment.good = true

theorem onlyAppended_flush (limit : Nat) (segment : WALSegment) (directory : WALDirectory) :
    OnlyAppended limit directory (segment.flush directory).2 := by
  unfold flush
  split_ifs with usable
  · exact onlyAppended_insert_stored limit directory segment segment.pending
  · exact onlyAppended_refl limit directory

theorem onlyAppended_close (limit : Nat) (segment : WALSegment) (directory : WALDirectory) :
    OnlyAppended limit directory (segment.close directory).2 := by
  unfold close
  split_ifs with isOpen
  · exact onlyAppended_flush limit segment directory
  · exact onlyAppended_refl limit directory

theorem openAppend_spec {limit : Nat} (segment : WALSegment)
    (directory : WALDirectory) (startLsn : Nat) (above : limit < segment.segmentId) :
    ∃ opened files, segment.openAppend directory startLsn true = some (opened, files) ∧
        opened.Writable ∧ opened.segmentId = segment.segmentId ∧
        OnlyAppended limit directory files := by
  unfold openAppend
  by_cases continued : (segment.stored directory).take 4 = leBytes 4 magic
  · rw [if_neg (by simp), if_pos continued]
    exact ⟨_, _, rfl, ⟨rfl, rfl, rfl⟩, rfl, onlyAppended_refl limit directory⟩
  · rw [if_neg (by simp), if_neg continued]
    exact ⟨_, _, rfl, ⟨rfl, rfl, rfl⟩, rfl, onlyAppended_insert_above above directory []⟩

theorem append_flush_spec (limit : Nat) (segment : WALSegment)
    (directory : WALDirectory) (data : List UInt8) (writable : segment.Writable) :
    ∃ buffered, segment.append directory data .succeeds = (true, buffered, directory) ∧
      (buffered.flush directory).1.Writable ∧
      (buffered.flush directory).1.segmentId = segment.segmentId ∧
      OnlyAppended limit directory (buffered.flush directory).2 ∧
      ∃ before, (buffered.flush directory).2.lookup segment.segmentId = some (before ++ data) := by
  have usable := And.intro writable.isOpen (And.intro writable.writeMode writable.good)
  obtain ⟨isOpen, writeMode, good⟩ := usable
  refine ⟨{ segment with size := segment.size + data.length,
                         pending := segment.pending ++ data }, ?_, ?_, ?_,
    onlyAppended_flush limit _ directory, ?_⟩
  · simp [append, isOpen, writeMode, good]
  · exact ⟨by simp [flush, isOpen, writeMode, good], by simp [flush, isOpen, writeMode, good], by
      simp [flush, isOpen, writeMode, good]⟩
  · simp [flush, isOpen, writeMode, good]
  · refine ⟨segment.stored directory ++ segment.pending, ?_⟩
    simp [flush, isOpen, writeMode, good, stored]

end WALSegment

namespace WALManager

structure FlushedFrom (before after : WALManager) : Prop where
  mode : after.mode = before.mode
  nextLsn : after.nextLsn = before.nextLsn
  segment_id : after.segment.segmentId = after.segmentId
  later : before.segmentId ≤ after.segmentId
  writable : after.segment.Writable
  appended : OnlyAppended before.segmentId before.directory after.directory

theorem rollSegmentIfNeeded_spec (manager : WALManager)
    (sameId : manager.segment.segmentId = manager.segmentId) (writable : manager.segment.Writable) :
    ∃ rolled, manager.rollSegmentIfNeeded true = (rolled, .ok ()) ∧
      FlushedFrom manager rolled ∧ rolled.flushedLsn = manager.flushedLsn ∧
      rolled.buffer = manager.buffer ∧ rolled.flushBuffer = manager.flushBuffer := by
  unfold rollSegmentIfNeeded
  split_ifs with small
  · refine ⟨manager, rfl, ?_, rfl, rfl, rfl⟩
    exact ⟨rfl, rfl, sameId, le_refl _, writable, onlyAppended_refl _ _⟩
  obtain ⟨opened, files, result, usable, openedId, kept⟩ := WALSegment.openAppend_spec
    { segmentId := manager.segmentId + 1 } (manager.segment.close manager.directory).2
    manager.nextLsn (Nat.lt_succ_self manager.segmentId)
  simp only [result]
  refine ⟨_, rfl, ⟨rfl, rfl, openedId, Nat.le_succ _, usable, ?_⟩, rfl, rfl, rfl⟩
  exact onlyAppended_trans (WALSegment.onlyAppended_close _ manager.segment manager.directory) kept

theorem writeFlushBuffer_spec (manager : WALManager) (synchronous : manager.mode ≠ .off)
    (sameId : manager.segment.segmentId = manager.segmentId) (writable : manager.segment.Writable) :
    ∃ flushed, manager.writeFlushBuffer .succeeds = (flushed, .ok ()) ∧
      FlushedFrom manager flushed ∧
      flushed.flushedLsn = max manager.flushedLsn (manager.nextLsn - 1) ∧
      flushed.buffer = manager.buffer ∧ flushed.flushBuffer = [] ∧
      ∃ before, flushed.directory.lookup manager.segmentId =
        some (before ++ manager.flushBuffer) := by
  obtain ⟨buffered, result, usable, bufferedId, kept, before, found⟩ :=
    manager.segment.append_flush_spec manager.segmentId manager.directory manager.flushBuffer
    writable
  unfold writeFlushBuffer
  simp only [result, if_neg synchronous]
  refine ⟨_, rfl, ⟨rfl, rfl, bufferedId.trans sameId, le_refl _, usable,
    kept⟩, rfl, rfl, rfl, before, ?_⟩
  rw [← sameId]
  exact found

theorem executeFlush_spec (manager : WALManager) (io : FlushIO)
    (opens : io.opens = true) (writes : io.write = .succeeds) (synchronous : manager.mode ≠ .off)
    (sameId : manager.segment.segmentId = manager.segmentId) (writable : manager.segment.Writable)
    (notEmpty : manager.buffer.isEmpty = false) :
    ∃ flushed, manager.executeFlush io = (flushed, .ok ()) ∧ FlushedFrom manager flushed ∧
      flushed.flushedLsn = max manager.flushedLsn (manager.nextLsn - 1) ∧
      flushed.buffer = manager.flushBuffer ∧ flushed.flushBuffer = [] ∧
      ∃ id ≤ flushed.segmentId, ∃ before, flushed.directory.lookup id =
        some (before ++ manager.buffer) := by
  obtain ⟨rolled, rollResult, rolls, rolledLsn, rolledBuffer, rolledFlush⟩ :=
    rollSegmentIfNeeded_spec
      { manager with buffer := manager.flushBuffer,
                     flushBuffer := manager.buffer } sameId writable
  have rolledMode : rolled.mode ≠ .off := by
    rw [rolls.mode]
    exact synchronous
  obtain ⟨flushed, flushResult, flushes, flushedLsn, flushedBuffer, flushedFlush, before, found⟩ :=
      writeFlushBuffer_spec rolled rolledMode rolls.segment_id rolls.writable
  refine ⟨flushed, ?_, ?_, ?_, ?_, flushedFlush, rolled.segmentId, flushes.later, before, ?_⟩
  · simp only [executeFlush, notEmpty, opens, writes, rollResult, flushResult]
    rfl
  · refine ⟨flushes.mode.trans rolls.mode, flushes.nextLsn.trans rolls.nextLsn,
      flushes.segment_id, rolls.later.trans flushes.later, flushes.writable, ?_⟩
    exact onlyAppended_trans rolls.appended fun id bound =>
      flushes.appended id (bound.trans rolls.later)
  · rw [flushedLsn, rolledLsn, rolls.nextLsn]
  · rw [flushedBuffer, rolledBuffer]
  · rw [found, rolledFlush]

/-- A flush that returns normally met no failure. -/
theorem executeFlush_eq_of_ok (manager : WALManager) (io : FlushIO)
    (returns : (manager.executeFlush io).2 = .ok ()) :
    manager.executeFlush io = manager.executeFlush {} := by
  obtain ⟨opens, write⟩ := io
  cases empty : manager.buffer.isEmpty with
  | true => simp [executeFlush, empty]
  | false =>
    have written (rolled : WALManager) (finishes : (rolled.writeFlushBuffer write).2 = .ok ()) :
        rolled.writeFlushBuffer write = rolled.writeFlushBuffer .succeeds := by
      cases write with
      | succeeds => rfl
      | fails stored =>
        by_cases unusable : (!rolled.segment.writeMode ||
            !rolled.segment.isOpen || !rolled.segment.good) = true
        · simp only [writeFlushBuffer, WALSegment.append, unusable, if_true]
        · simp [writeFlushBuffer, WALSegment.append, unusable] at finishes
    by_cases small : manager.segment.size < maxSegmentSize
    · simp only [executeFlush, empty, rollSegmentIfNeeded, small, if_true,
        Bool.false_eq_true, if_false] at returns ⊢
      exact written _ returns
    cases opens with
    | false =>
      simp [executeFlush, empty, rollSegmentIfNeeded, small, WALSegment.openAppend] at returns
    | true =>
      simp only [executeFlush, empty, Bool.false_eq_true, if_false] at returns ⊢
      split at returns
      · cases returns
      · exact written _ returns

end WALManager

namespace WALSystem

/-- The log is in order: the buffer holds the records above the flushed LSN,
and the records up to it are written. -/
structure Durable (system : WALSystem) : Prop where
  mode : system.manager.mode ≠ .off
  next_eq : system.manager.nextLsn = system.appended.length + 1
  lsn_eq : ∀ index record, system.appended[index]? = some record → record.lsn = index + 1
  flushed_le : system.manager.flushedLsn ≤ system.appended.length
  buffer_eq : system.manager.buffer = (system.appended.drop system.manager.flushedLsn).flatMap
    LogRecord.serialize
  flushBuffer_nil : system.manager.flushBuffer = []
  written : ∀ record ∈ system.appended.take system.manager.flushedLsn,
    WrittenUpTo system.manager.segmentId system.manager.directory record
  segment_id : system.manager.segment.segmentId = system.manager.segmentId
  writable : system.manager.segment.Writable

theorem run_append_singleton (manager : WALManager) (calls : List WALCall) (call : WALCall) :
    run manager (calls ++ [call]) = (run manager calls).step call := by simp [run]

variable {manager : WALManager} {system : WALSystem}

theorem durable_create {directory : WALDirectory} {mode : DurabilityMode}
    {opens : Bool} (synchronous : mode ≠ .off)
    (created : WALManager.create directory mode opens = .ok manager) :
    Durable { manager := manager } := by
  cases opens with
  | false => simp [WALManager.create, WALSegment.openAppend] at created
  | true =>
    obtain ⟨opened, files, result, usable, openedId, _⟩ := WALSegment.openAppend_spec
      { segmentId := 1 } directory 1 (Nat.zero_lt_one)
    simp only [WALManager.create, result] at created
    cases created
    exact ⟨synchronous, rfl, by simp, le_refl 0, rfl, rfl, by simp, openedId, usable⟩

theorem mem_take_of_lsn_le (durable : system.Durable) {record : LogRecord}
    (mem : record ∈ system.appended) {bound : Nat}
    (small : record.lsn ≤ bound) : record ∈ system.appended.take bound := by
  obtain ⟨index, found⟩ := List.mem_iff_getElem?.mp mem
  have lsn := durable.lsn_eq index record found
  apply List.mem_iff_getElem?.mpr
  refine ⟨index, ?_⟩
  rw [List.getElem?_take, if_pos (by omega), found]

theorem isEmpty_buffer_iff (durable : system.Durable) :
    system.manager.buffer.isEmpty = true ↔ system.manager.flushedLsn = system.appended.length := by
  rw [durable.buffer_eq, List.isEmpty_iff, List.flatMap_eq_nil_iff]
  have bound := durable.flushed_le
  constructor
  · intro allEmpty
    by_contra ne
    have notNil : system.appended.drop system.manager.flushedLsn ≠ [] := by
      rw [Ne, List.drop_eq_nil_iff]
      omega
    obtain ⟨record, mem⟩ := List.exists_mem_of_ne_nil _ notNil
    have length := record.length_serialize
    rw [allEmpty record mem] at length
    simp only [List.length_nil, headerSize] at length
    omega
  · intro all record mem
    rw [all, List.drop_length] at mem
    cases mem

/-- A successful flush of a log in order. -/
theorem durable_executeFlush (durable : system.Durable) (io : FlushIO)
    (opens : io.opens = true) (writes : io.write = .succeeds) :
    Durable { system with manager := (system.manager.executeFlush io).1 } ∧
      (system.manager.executeFlush io).2 = .ok () ∧
      (system.manager.executeFlush io).1.flushedLsn = system.appended.length := by
  cases empty : system.manager.buffer.isEmpty with
  | true =>
    have idle : system.manager.executeFlush io = (system.manager, .ok ()) := by
      simp [executeFlush, empty]
    rw [idle]
    exact ⟨durable, rfl, (isEmpty_buffer_iff durable).mp empty⟩
  | false =>
    obtain ⟨flushed, result, flushes, flushedLsn, buffer, flushBuffer, id, idBound, before, found⟩
        := system.manager.executeFlush_spec io opens writes durable.mode durable.segment_id
        durable.writable empty
    have all : flushed.flushedLsn = system.appended.length := by
      rw [flushedLsn, durable.next_eq]
      have bound := durable.flushed_le
      omega
    rw [result]
    refine ⟨?_, rfl, all⟩
    refine ⟨?_, ?_, durable.lsn_eq, all.le, ?_, flushBuffer, ?_,
      flushes.segment_id, flushes.writable⟩
    · exact flushes.mode.symm ▸ durable.mode
    · exact flushes.nextLsn.trans durable.next_eq
    · change flushed.buffer = (system.appended.drop flushed.flushedLsn).flatMap _
      rw [buffer, durable.flushBuffer_nil, all, List.drop_length]
      rfl
    intro record mem
    have appended : record ∈ system.appended := List.mem_of_mem_take mem
    rw [← List.take_append_drop system.manager.flushedLsn system.appended,
      List.mem_append] at appended
    rcases appended with early | late
    · exact writtenUpTo_of_onlyAppended (durable.written record early)
        flushes.appended flushes.later
    refine ⟨id, idBound, _, found, ?_⟩
    rw [durable.buffer_eq]
    obtain ⟨earlier, later, split⟩ := List.append_of_mem late
    rw [split, List.flatMap_append, List.flatMap_cons]
    exact ⟨before ++ earlier.flatMap LogRecord.serialize,
      later.flatMap LogRecord.serialize, by simp⟩

/-- The record fits into what is left of the buffer; the file system answers
a flush without a failure. -/
def Undisturbed (system : WALSystem) : WALCall → Prop
  | .append record _ => system.manager.buffer.length + record.getSize ≤ capacity
  | .flush io => io.opens = true ∧ io.write = .succeeds
  | .flushUpTo _ io => io.opens = true ∧ io.write = .succeeds

/-- Every call of the history is undisturbed in the state it is made in. -/
def UndisturbedRun (manager : WALManager) (calls : List WALCall) : Prop :=
  ∀ before call after, calls = before ++ call :: after → Undisturbed (run manager before) call

theorem UndisturbedRun.of_append_singleton {manager : WALManager}
    {calls : List WALCall} {call : WALCall}
    (undisturbed : UndisturbedRun manager (calls ++ [call])) :
    UndisturbedRun manager calls ∧ Undisturbed (run manager calls) call := by
  refine ⟨?_, undisturbed calls call [] rfl⟩
  intro before other after split
  apply undisturbed before other (after ++ [call])
  rw [split, List.append_assoc, List.cons_append]

theorem step_append_of_room (system : WALSystem) (record : LogRecord) (io : FlushIO)
    (fits : system.manager.buffer.length + record.getSize ≤ capacity) :
    system.step (.append record io) =
      { manager := { system.manager with
          nextLsn := system.manager.nextLsn + 1
          buffer := system.manager.buffer ++
            ({ record with lsn := system.manager.nextLsn } : LogRecord).serialize }
        appended := system.appended ++ [{ record with lsn := system.manager.nextLsn }] } := by
  have room : ¬ system.manager.buffer.length +
      ({ record with lsn := system.manager.nextLsn } : LogRecord).getSize > capacity :=
      Nat.not_lt.mpr fits
  simp only [step, WALManager.append, LogBuffer.append, if_neg room]

theorem durable_append (durable : system.Durable) (record : LogRecord)
    (io : FlushIO) (fits : system.manager.buffer.length + record.getSize ≤
      capacity) : (system.step (.append record io)).Durable := by
  have bound := durable.flushed_le
  rw [step_append_of_room system record io fits]
  refine ⟨durable.mode, ?_, ?_, ?_, ?_, durable.flushBuffer_nil, ?_,
    durable.segment_id, durable.writable⟩
  · simp [durable.next_eq]
  · intro index other found
    rw [List.getElem?_append] at found
    split_ifs at found with early
    · exact durable.lsn_eq index other found
    have only : index - system.appended.length = 0 := by
      by_contra later
      rw [List.getElem?_eq_none (by simp; omega)] at found
      cases found
    rw [only] at found
    simp only [List.getElem?_cons_zero, Option.some.injEq] at found
    rw [← found]
    have next := durable.next_eq
    change system.manager.nextLsn = index + 1
    omega
  · simp only [List.length_append, List.length_cons, List.length_nil]
    omega
  · rw [List.drop_append_of_le_length bound, List.flatMap_append, ← durable.buffer_eq]
    simp
  · rw [List.take_append_of_le_length bound]
    exact durable.written

theorem durable_step (durable : system.Durable) (call : WALCall)
    (undisturbed : system.Undisturbed call) : (system.step call).Durable := by
  cases call with
  | append record io => exact durable_append durable record io undisturbed
  | flush io =>
    exact (durable_executeFlush durable io undisturbed.1 undisturbed.2).1
  | flushUpTo targetLsn io =>
    by_cases early : targetLsn ≤ system.manager.flushedLsn
    · simp only [step, flushUpTo, if_pos early]
      exact durable
    · simp only [step, flushUpTo, if_neg early]
      exact (durable_executeFlush durable io undisturbed.1 undisturbed.2).1

theorem durable_run (initial : Durable { manager := manager })
    (calls : List WALCall) (undisturbed : UndisturbedRun manager calls) :
    (run manager calls).Durable := by
  induction calls using List.reverseRecOn with
  | nil => exact initial
  | append_singleton calls call ih =>
    obtain ⟨earlier, last⟩ := undisturbed.of_append_singleton
    rw [run_append_singleton]
    exact durable_step (ih earlier) call last

/-- A flush that returns normally from a log in order has written every
record, whatever the file system answered. -/
theorem written_of_executeFlush_ok (durable : system.Durable) (io : FlushIO)
    (returns : (system.manager.executeFlush io).2 = .ok ()) {record : LogRecord}
    (mem : record ∈ system.appended) :
    Written (system.manager.executeFlush io).1.directory record := by
  rw [WALManager.executeFlush_eq_of_ok system.manager io returns]
  obtain ⟨flushed, _, all⟩ := durable_executeFlush durable {} rfl rfl
  apply written_of_writtenUpTo
  apply flushed.written record
  rw [all, List.take_length]
  exact mem

/-- In every run in which each record finds room in the buffer and no file
operation fails, a flush that returns normally has written every record it
was asked for, and the flushed LSN covers written records only. -/
theorem flushed_records_written (directory : WALDirectory)
    (mode : DurabilityMode) (opens : Bool) (manager : WALManager)
    (calls : List WALCall) (synchronous : mode ≠ .off)
    (created : WALManager.create directory mode opens = .ok manager)
    (undisturbed : UndisturbedRun manager calls) :
    (∀ record ∈ (run manager calls).appended, record.lsn ≤ (run manager calls).manager.flushedLsn →
        Written (run manager calls).manager.directory record) ∧
    (∀ io, ((run manager calls).manager.flush io).2 = .ok () →
      ∀ record ∈ (run manager calls).appended,
        Written ((run manager calls).manager.flush io).1.directory record) ∧
    (∀ targetLsn io, ((run manager calls).manager.flushUpTo targetLsn io).2 = .ok () →
        ∀ record ∈ (run manager calls).appended, record.lsn ≤ targetLsn →
          Written ((run manager calls).manager.flushUpTo targetLsn io).1.directory record) := by
  have durable := durable_run (durable_create synchronous created) calls undisturbed
  have covered (record : LogRecord) (member : record ∈ (run manager calls).appended) (small :
      record.lsn ≤ (run manager calls).manager.flushedLsn) : Written
      (run manager calls).manager.directory record := written_of_writtenUpTo (durable.written record
      (mem_take_of_lsn_le durable member small))
  refine ⟨covered, ?_, ?_⟩
  · intro io returns record member
    exact written_of_executeFlush_ok durable io returns member
  intro targetLsn io returns record member small
  by_cases early : targetLsn ≤ (run manager calls).manager.flushedLsn
  · simp only [flushUpTo, if_pos early]
    exact covered record member (small.trans early)
  · simp only [flushUpTo, if_neg early] at returns ⊢
    exact written_of_executeFlush_ok durable io returns member

/-- A log with one flushed record. -/
theorem flushed_records_written_single :
    ∃ manager, WALManager.create ∅ .normal true = .ok manager ∧
      (run manager [.append {} {}, .flush {}]).manager.flushedLsn = 1 ∧
      ∀ record ∈ (run manager [.append {} {}, .flush {}]).appended,
        record.lsn ≤ 1 → Written
          (run manager [.append {} {}, .flush {}]).manager.directory record := by
  refine ⟨_, rfl, rfl, ?_⟩
  refine (flushed_records_written ∅ .normal true _ [.append {} {}, .flush {}] (by decide) rfl ?_).1
  rintro (_ | ⟨_, _ | ⟨_, before⟩⟩) call after split
  · cases split
    change ([] : List UInt8).length + ({} : LogRecord).getSize ≤ capacity
    decide
  · cases split
    exact ⟨rfl, rfl⟩
  · simp at split

/-- A record that finds the buffer full is counted as flushed, but only the
records before it reach the segment. -/
theorem step_append_full (durable : system.Durable) (record : LogRecord)
    (small : system.manager.segment.size < maxSegmentSize) (full : capacity <
      system.manager.buffer.length + record.getSize) (fits : record.getSize ≤ capacity) :
    (system.step (.append record {})).manager.flushedLsn = system.manager.nextLsn ∧
      (system.step (.append record {})).manager.directory =
        system.manager.directory.insert system.manager.segment.segmentId
          (system.manager.segment.stored system.manager.directory ++
            (system.manager.segment.pending ++ system.manager.buffer)) := by
  have notEmpty : system.manager.buffer.isEmpty = false := by
    cases buffer : system.manager.buffer with
    | nil =>
      rw [buffer, List.length_nil] at full
      omega
    | cons byte bytes => rfl
  have noRoom : capacity < system.manager.buffer.length +
      ({ record with lsn := system.manager.nextLsn } : LogRecord).getSize := full
  have room : ¬ capacity <
      ({ record with lsn := system.manager.nextLsn } : LogRecord).getSize := Nat.not_lt.mpr fits
  have bound := durable.flushed_le
  have next := durable.next_eq
  have later : max system.manager.flushedLsn system.manager.nextLsn =
      system.manager.nextLsn := by omega
  have usable := durable.writable
  simp [step, WALManager.append, LogBuffer.append, noRoom, room, WALManager.flush,
    executeFlush, notEmpty, WALManager.rollSegmentIfNeeded, small,
    WALManager.writeFlushBuffer, WALSegment.append, usable.isOpen, usable.writeMode, usable.good,
    durable.mode, WALSegment.flush, durable.flushBuffer_nil, later, WALSegment.stored]

theorem run_append_full (created : WALManager.create ∅ .normal true = .ok manager)
    (first second : LogRecord) (firstFits : first.getSize ≤ capacity)
    (secondFits : second.getSize ≤ capacity)
    (full : capacity <
      ({ first with lsn := 1 } : LogRecord).serialize.length + second.getSize) :
    (run manager [.append first {}, .append second {}]).manager.flushedLsn = 2 ∧ (run manager
        [.append first {}, .append second {}]).appended =
        [{ first with lsn := 1 }, { second with lsn := 2 }] ∧ (run manager [.append first {},
        .append second {}]).manager.directory = (AList.insert 1 [] ∅ : WALDirectory).insert 1
        (WALSegment.headerBytes 1 1 ++ ({ first with lsn := 1 } : LogRecord).serialize) := by
  have synchronous : DurabilityMode.normal ≠ .off := by decide
  have initial := durable_create synchronous created
  have fields : manager.buffer = [] ∧ manager.nextLsn = 1 ∧ manager.segment.size <
      maxSegmentSize ∧ manager.segment.segmentId = 1 ∧ manager.segment.pending =
      WALSegment.headerBytes 1 1 ∧ manager.directory = (AList.insert 1 [] ∅ : WALDirectory) := by
    cases created
    exact ⟨rfl, rfl, by decide, rfl, rfl, rfl⟩
  obtain ⟨buffer, nextLsn, small, segmentId, pending, files⟩ := fields
  have room : manager.buffer.length + first.getSize ≤ capacity := by
    simpa [buffer] using firstFits
  have durable := durable_append initial first {} room
  have firstStep := step_append_of_room { manager := manager } first {} room
  have twoSteps : run manager [.append first {}, .append second {}] =
      (step { manager := manager } (.append first {})).step (.append second {}) := rfl
  rw [twoSteps]
  generalize step { manager := manager } (.append first {}) = middle at durable firstStep
  have middleNext : middle.manager.nextLsn = 2 := by rw [firstStep, nextLsn]
  have middleAppended : middle.appended = [{ first with lsn := 1 }] := by
    rw [firstStep, nextLsn]
    rfl
  have middleBuffer : middle.manager.buffer = ({ first with lsn := 1 } : LogRecord).serialize := by
    rw [firstStep, nextLsn, buffer, List.nil_append]
  have middleSegment : middle.manager.segment = manager.segment := by rw [firstStep]
  have middleFiles : middle.manager.directory = manager.directory := by rw [firstStep]
  obtain ⟨flushedLsn, directory⟩ := step_append_full durable second
    (by rw [middleSegment]; exact small) (by rw [middleBuffer]; exact full) secondFits
  refine ⟨flushedLsn.trans middleNext, ?_, ?_⟩
  · rw [step, middleAppended, middleNext]
    rfl
  · rw [directory, middleSegment, middleBuffer, middleFiles, segmentId, WALSegment.stored,
      segmentId, pending, files, AList.lookup_insert, Option.getD_some, List.nil_append]

theorem not_infix_of_count (byte : UInt8) {part whole : List UInt8}
    (more : whole.count byte < part.count byte) : ¬ part <:+: whole := by
  intro contained
  have bound := contained.sublist.count_le byte
  omega

/-- A byte that is in no other field occurs in a record as often as in its
payload, up to the four bytes of the checksum. -/
theorem count_serialize_bounds (record : LogRecord) (byte : UInt8)
    (short : record.payload.length < 2 ^ 32) (absent : record.fieldBytes.count byte = 0) :
    record.payload.count byte ≤ record.serialize.count byte ∧
      record.serialize.count byte ≤ record.payload.count byte + 4 := by
  have whole : record.payload.take record.getPayloadSize = record.payload := by
    rw [LogRecord.getPayloadSize, Nat.mod_eq_of_lt short, List.take_length]
  have checksum : (leBytes 4 record.calculateChecksum.toNat).count byte ≤ 4 := by
    have bound := List.count_le_length (a := byte) (l := leBytes 4 record.calculateChecksum.toNat)
    simpa using bound
  rw [LogRecord.serialize, List.count_append, List.count_append, absent, whole]
  omega

theorem lost_of_append_full {count : Nat} (size : count + headerSize = capacity)
    (created : WALManager.create ∅ .normal true = .ok manager) {system : WALSystem}
    (ran : system = run manager [.append { payload := List.replicate count 0 } {},
      .append { payload := List.replicate 100 0xAB } {}]) :
    system.manager.flushedLsn = 2 ∧ system.manager.flushUpTo 2 {} = (system.manager, .ok ()) ∧
      ∃ record ∈ system.appended, record.lsn = 2 ∧ ¬ Written system.manager.directory record := by
  have header : headerSize = 41 := rfl
  have limit : capacity = 4194304 := rfl
  have payloadSize (lsn count : Nat) (byte : UInt8) (small : count < 2 ^ 32) :
      ({ lsn := lsn, payload := List.replicate count byte } : LogRecord).getPayloadSize = count :=
      by
    rw [LogRecord.getPayloadSize, List.length_replicate, Nat.mod_eq_of_lt small]
  have fullSize := fun lsn => payloadSize lsn count 0 (by omega)
  have nextSize := fun lsn => payloadSize lsn 100 0xAB (by decide)
  obtain ⟨flushedLsn, appended, directory⟩ := run_append_full created
    { payload := List.replicate count 0 } { payload := List.replicate 100 0xAB }
    (by rw [getSize, fullSize]; omega)
    (by rw [getSize, nextSize]; omega)
    (by rw [LogRecord.length_serialize, fullSize, getSize, nextSize]; omega)
  rw [← ran] at flushedLsn appended directory
  refine ⟨flushedLsn, ?_, { lsn := 2, payload := List.replicate 100 0xAB }, ?_, rfl, ?_⟩
  · rw [flushUpTo, if_pos flushedLsn.ge]
  · rw [appended]
    exact List.mem_cons_of_mem _ List.mem_cons_self
  rintro ⟨id, content, found, contained⟩
  rw [directory] at found
  have only : content = WALSegment.headerBytes 1 1 ++
      ({ lsn := 1, payload := List.replicate count 0 } : LogRecord).serialize := by
    by_cases same : id = 1
    · subst same
      exact (Option.some.inj found).symm
    · rw [AList.lookup_insert_ne same, AList.lookup_insert_ne same, AList.lookup_empty] at found
      cases found
  have upper := (count_serialize_bounds { lsn := 1, payload := List.replicate count 0 } 0xAB
    (by rw [List.length_replicate]; omega) (by
      obtain rfl : count = 4194304 - 41 := by omega
      rw [fieldBytes, fullSize]
      decide)).2
  have lower := (count_serialize_bounds { lsn := 2, payload := List.replicate 100 0xAB } 0xAB
    (by decide) (by rw [fieldBytes, nextSize]; decide)).1
  refine not_infix_of_count 0xAB ?_ contained
  have absent : (WALSegment.headerBytes 1 1).count 0xAB = 0 := by decide
  rw [only, List.count_append, absent]
  rw [List.count_replicate, if_neg (by decide)] at upper
  rw [List.count_replicate_self] at lower
  omega

/-- After a record that fills the buffer exactly, the next record is given
LSN 2 and counted as flushed, `flush_up_to(2)` returns at once, and the
record is in no segment file. -/
theorem flushed_record_lost :
    ∃ manager, WALManager.create ∅ .normal true = .ok manager ∧
      ∃ system, system = run manager
          [.append { payload := List.replicate (4194304 - 41) 0 } {},
            .append { payload := List.replicate 100 0xAB } {}] ∧
        system.manager.flushedLsn = 2 ∧
        system.manager.flushUpTo 2 {} = (system.manager, .ok ()) ∧
        ∃ record ∈ system.appended, record.lsn = 2 ∧ ¬ Written system.manager.directory record := by
  exact ⟨_, rfl, _, rfl, lost_of_append_full (by decide) rfl rfl⟩

end WALSystem

end KlyroDB
