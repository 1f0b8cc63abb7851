import KlyroDB.WalDurability
import Mathlib.Data.List.Range

/-!
# What the segment files hold

The bytes written to a segment are those in its file followed by those still
in the stream of the open segment.
-/

namespace KlyroDB

open ByteMemory

namespace WALSegment

/-- The bytes written to the segment with the given identifier, while the
given segment is the open one. -/
def fileBytes (segment : WALSegment) (directory : WALDirectory) (id : Nat) : List UInt8 :=
  (directory.lookup id).getD [] ++
    if id = segment.segmentId then segment.pending else []

def recordBytes (segment : WALSegment) (directory : WALDirectory) (id : Nat) : List UInt8 :=
  (segment.fileBytes directory id).drop headerSize

structure Headed (content : List UInt8) : Prop where
  whole : headerSize ≤ content.length
  magic : content.take 4 = leBytes 4 WALSegment.magic

theorem length_headerBytes (segmentId startLsn : Nat) :
    (headerBytes segmentId startLsn).length = headerSize := by simp [headerBytes, headerSize]

theorem headed_headerBytes (segmentId startLsn : Nat) :
    Headed (headerBytes segmentId startLsn) := by
  refine ⟨(length_headerBytes segmentId startLsn).ge, ?_⟩
  unfold headerBytes
  rw [List.append_assoc, List.append_assoc]
  exact List.take_left' (length_leBytes 4 WALSegment.magic)

theorem Headed.append {content : List UInt8} (headed : Headed content)
    (data : List UInt8) : Headed (content ++ data) := by
  have whole := headed.whole
  constructor
  · rw [List.length_append]
    omega
  have room : 4 ≤ content.length := by
    unfold headerSize at whole
    omega
  rw [List.take_append_of_le_length room]
  exact headed.magic

/-- Every file is empty or has its header, the open one has it, and a stream
that takes no writes holds no bytes. -/
structure Tidy (segment : WALSegment) (directory : WALDirectory) : Prop where
  pending_nil : ¬ segment.Writable → segment.pending = []
  headed : ∀ id, segment.fileBytes directory id = [] ∨ Headed (segment.fileBytes directory id)
  writable_headed : segment.Writable → Headed (segment.fileBytes directory segment.segmentId)

theorem writable_iff (segment : WALSegment) :
    segment.Writable ↔ (segment.isOpen && segment.writeMode && segment.good) = true := by
  simp only [Bool.and_eq_true]
  constructor
  · intro writable
    exact ⟨⟨writable.isOpen, writable.writeMode⟩, writable.good⟩
  · rintro ⟨⟨isOpen, writeMode⟩, good⟩
    exact ⟨isOpen, writeMode, good⟩

variable {segment : WALSegment} {directory : WALDirectory}

theorem fileBytes_of_pending_nil (empty : segment.pending = [])
    (directory : WALDirectory) (id : Nat) :
    segment.fileBytes directory id = (directory.lookup id).getD [] := by simp [fileBytes, empty]

theorem lookup_flush (writable : segment.Writable) (directory : WALDirectory)
    (id : Nat) : ((segment.flush directory).2.lookup id).getD [] =
      segment.fileBytes directory id := by
  unfold flush
  rw [if_pos ((writable_iff segment).mp writable)]
  by_cases same : id = segment.segmentId
  · subst same
    simp [fileBytes, stored]
  · simp [fileBytes, same]

theorem Tidy.lookup_close (tidy : segment.Tidy directory) (id : Nat) :
    ((segment.close directory).2.lookup id).getD [] = segment.fileBytes directory id := by
  by_cases writable : segment.Writable
  · unfold close
    rw [if_pos writable.isOpen]
    exact lookup_flush writable directory id
  have closed : (segment.close directory).2 = directory := by
    have unusable : ¬ (segment.isOpen && segment.writeMode && segment.good) = true := fun usable
        => writable ((writable_iff segment).mpr usable)
    unfold close flush
    split_ifs <;> rfl
  rw [closed, fileBytes_of_pending_nil (tidy.pending_nil writable)]

def AllHeaded (directory : WALDirectory) : Prop :=
  ∀ id, (directory.lookup id).getD [] = [] ∨ Headed ((directory.lookup id).getD [])

/-- A segment opened for appending continues its file or starts a new one. -/
theorem openAppend_cases {startLsn : Nat} {opened : WALSegment} {files : WALDirectory}
    (result : segment.openAppend directory startLsn true = some (opened, files)) :
    opened.Writable ∧ opened.segmentId = segment.segmentId ∧
      (((segment.stored directory).take 4 = leBytes 4 magic ∧
          opened.pending = [] ∧ files = directory) ∨
        ((segment.stored directory).take 4 ≠ leBytes 4 magic ∧
          opened.pending = headerBytes segment.segmentId startLsn ∧
          files = directory.insert segment.segmentId [])) := by
  unfold openAppend at result
  by_cases continued : (segment.stored directory).take 4 = leBytes 4 magic
  · simp only [Bool.true_eq_false, if_false, if_pos continued,
      Option.some.injEq, Prod.mk.injEq] at result
    obtain ⟨rfl, rfl⟩ := result
    exact ⟨⟨rfl, rfl, rfl⟩, rfl, .inl ⟨continued, rfl, rfl⟩⟩
  · simp only [Bool.true_eq_false, if_false, if_neg continued,
      Option.some.injEq, Prod.mk.injEq] at result
    obtain ⟨rfl, rfl⟩ := result
    exact ⟨⟨rfl, rfl, rfl⟩, rfl, .inr ⟨continued, rfl, rfl⟩⟩

theorem openAppend_tidy (headed : AllHeaded directory) {startLsn : Nat}
    {opened : WALSegment} {files : WALDirectory}
    (result : segment.openAppend directory startLsn true = some (opened, files)) :
    opened.Writable ∧ opened.segmentId = segment.segmentId ∧ opened.Tidy files ∧
      ∀ id, opened.recordBytes files id = ((directory.lookup id).getD []).drop headerSize := by
  obtain ⟨writable, openedId, continued | created⟩ := openAppend_cases result
  · obtain ⟨magicNumber, empty, rfl⟩ := continued
    have bytes := fileBytes_of_pending_nil empty files
    refine ⟨writable, openedId, ⟨fun _ => empty, ?_, ?_⟩, ?_⟩
    · intro id
      rw [bytes]
      exact headed id
    · intro _
      rw [bytes, openedId]
      refine (headed segment.segmentId).resolve_left fun nothing => ?_
      unfold stored at magicNumber
      rw [nothing] at magicNumber
      have lengths := congrArg List.length magicNumber
      rw [length_leBytes] at lengths
      exact absurd lengths (by decide)
    · intro id
      rw [recordBytes, bytes]
  obtain ⟨otherNumber, header, rfl⟩ := created
  have nothing : (directory.lookup segment.segmentId).getD [] = [] :=
    (headed segment.segmentId).resolve_right fun found =>
      otherNumber found.magic
  have here : opened.fileBytes (directory.insert segment.segmentId [])
      segment.segmentId = headerBytes segment.segmentId startLsn := by
    unfold fileBytes
    rw [AList.lookup_insert, if_pos openedId.symm, header, Option.getD_some, List.nil_append]
  have elsewhere : ∀ id, id ≠ segment.segmentId → opened.fileBytes
      (directory.insert segment.segmentId []) id = (directory.lookup id).getD [] := by
    intro id ne
    simp [fileBytes, openedId, ne]
  refine ⟨writable, openedId, ⟨fun unusable => absurd writable unusable, ?_, ?_⟩, ?_⟩
  · intro id
    by_cases same : id = segment.segmentId
    · rw [same, here]
      exact .inr (headed_headerBytes _ startLsn)
    · rw [elsewhere id same]
      exact headed id
  · intro _
    rw [openedId, here]
    exact headed_headerBytes _ startLsn
  intro id
  unfold recordBytes
  by_cases same : id = segment.segmentId
  · rw [same, here, nothing, List.drop_nil]
    exact List.drop_eq_nil_of_le (length_headerBytes _ startLsn).le
  · rw [elsewhere id same]

/-- A successful write puts the data behind the bytes of the open segment;
the stream may be flushed afterwards. -/
theorem Tidy.append (tidy : segment.Tidy directory)
    (writable : segment.Writable) (data : List UInt8) :
    ∃ written, segment.append directory data .succeeds = (true, written, directory) ∧
      written.segmentId = segment.segmentId ∧ written.Writable ∧
      written.Tidy directory ∧
      written.recordBytes directory segment.segmentId =
        segment.recordBytes directory segment.segmentId ++ data ∧
      ∀ id, id ≠ segment.segmentId →
        written.recordBytes directory id = segment.recordBytes directory id := by
  obtain ⟨isOpen, writeMode, good⟩ := writable
  have usable : segment.Writable := ⟨isOpen, writeMode, good⟩
  refine ⟨{ segment with size := segment.size + data.length,
                         pending := segment.pending ++ data },
    by simp [WALSegment.append, isOpen, writeMode, good], rfl,
    ⟨isOpen, writeMode, good⟩, ?_⟩
  have here : fileBytes { segment with
      size := segment.size + data.length,
      pending := segment.pending ++ data } directory segment.segmentId =
        segment.fileBytes directory segment.segmentId ++ data := by simp [fileBytes]
  have elsewhere : ∀ id, id ≠ segment.segmentId → fileBytes { segment with
      size := segment.size + data.length,
      pending := segment.pending ++ data } directory id = segment.fileBytes directory id := by
    intro id ne
    simp [fileBytes, ne]
  have headed := tidy.writable_headed usable
  refine ⟨⟨fun unusable => absurd ⟨isOpen, writeMode, good⟩ unusable, ?_, ?_⟩, ?_, ?_⟩
  · intro id
    by_cases same : id = segment.segmentId
    · rw [same, here]
      exact .inr (headed.append data)
    · rw [elsewhere id same]
      exact tidy.headed id
  · intro _
    exact here.symm ▸ headed.append data
  · unfold recordBytes
    rw [here, List.drop_append_of_le_length headed.whole]
  · intro id ne
    unfold recordBytes
    rw [elsewhere id ne]

theorem fileBytes_flush (writable : segment.Writable) (directory : WALDirectory) (id : Nat) :
    (segment.flush directory).1.fileBytes (segment.flush directory).2 id =
      segment.fileBytes directory id := by
  have empty : (segment.flush directory).1.pending = [] := by
    unfold flush
    rw [if_pos ((writable_iff segment).mp writable)]
  rw [fileBytes_of_pending_nil empty, lookup_flush writable]

theorem flush_frame (segment : WALSegment) (directory : WALDirectory) :
    (segment.flush directory).1.segmentId = segment.segmentId ∧
      ((segment.flush directory).1.Writable ↔ segment.Writable) := by
  unfold flush
  split_ifs
  · exact ⟨rfl, fun ⟨isOpen, writeMode, good⟩ => ⟨isOpen, writeMode, good⟩,
      fun ⟨isOpen, writeMode, good⟩ => ⟨isOpen, writeMode, good⟩⟩
  · exact ⟨rfl, Iff.rfl⟩

theorem Tidy.flush (tidy : segment.Tidy directory) (writable : segment.Writable) :
    (segment.flush directory).1.Tidy (segment.flush directory).2 := by
  obtain ⟨sameId, sameWritable⟩ := flush_frame segment directory
  have bytes := fileBytes_flush writable directory
  refine ⟨fun unusable => absurd (sameWritable.mpr writable) unusable, ?_, ?_⟩
  · intro id
    rw [bytes]
    exact tidy.headed id
  · intro _
    rw [bytes, sameId]
    exact tidy.writable_headed writable

/-- A failed write that stores the bytes of the stream and none of the data
changes what is written to no segment. -/
theorem Tidy.append_fails (tidy : segment.Tidy directory)
    (writable : segment.Writable) (data : List UInt8) :
    ∃ broken files, segment.append directory data
        (.fails segment.pending.length) = (false, broken, files) ∧
      broken.segmentId = segment.segmentId ∧ broken.Tidy files ∧
      ∀ id, broken.fileBytes files id = segment.fileBytes directory id := by
  obtain ⟨isOpen, writeMode, good⟩ := writable
  refine ⟨{ segment with good := false, pending := [] }, directory.insert segment.segmentId
    (segment.stored directory ++ segment.pending), by simp
    [WALSegment.append, isOpen, writeMode, good], rfl, ?_⟩
  have bytes : ∀ id, fileBytes { segment with good := false, pending := [] } (directory.insert
      segment.segmentId (segment.stored directory ++ segment.pending)) id = segment.fileBytes
      directory id := by
    intro id
    by_cases same : id = segment.segmentId
    · subst same
      simp [fileBytes, stored]
    · simp [fileBytes, same]
  refine ⟨⟨fun _ => rfl, ?_, ?_⟩, bytes⟩
  · intro id
    rw [bytes]
    exact tidy.headed id
  · intro usable
    exact absurd usable.good (by simp)

end WALSegment

theorem LogBuffer.eq_of_append {buffer result : List UInt8}
    {record : LogRecord} (fits : append buffer record = some result) :
    result = buffer ++ record.serialize := by
  unfold append at fits
  split at fits
  · cases fits
  · exact (Option.some.inj fits).symm

namespace WALManager

def recordBytes (manager : WALManager) (id : Nat) : List UInt8 :=
  manager.segment.recordBytes manager.directory id

structure Orderly (manager : WALManager) : Prop where
  segment_id : manager.segment.segmentId = manager.segmentId
  tidy : manager.segment.Tidy manager.directory

structure Rolled (before after : WALManager) : Prop where
  orderly : after.Orderly
  bytes : ∀ id, after.recordBytes id = before.recordBytes id
  buffer : after.buffer = before.buffer
  flushBuffer : after.flushBuffer = before.flushBuffer
  nextLsn : after.nextLsn = before.nextLsn
  later : before.segmentId ≤ after.segmentId

structure Wrote (before after : WALManager) : Prop where
  orderly : after.Orderly
  here : after.recordBytes before.segmentId =
    before.recordBytes before.segmentId ++ before.flushBuffer
  elsewhere : ∀ id, id ≠ before.segmentId → after.recordBytes id = before.recordBytes id
  buffer : after.buffer = before.buffer
  flushBuffer : after.flushBuffer = []
  nextLsn : after.nextLsn = before.nextLsn
  segmentId : after.segmentId = before.segmentId

variable {manager : WALManager}

section

variable (orderly : manager.Orderly)

include orderly

theorem Orderly.rolled_refl : Rolled manager manager :=
  ⟨orderly, fun _ => rfl, rfl, rfl, rfl, le_refl _⟩

theorem Orderly.rollSegmentIfNeeded (opens : Bool) :
    Rolled manager (manager.rollSegmentIfNeeded opens).1 ∧
      ((manager.rollSegmentIfNeeded opens).2 = .ok () →
        manager.segment.Writable → (manager.rollSegmentIfNeeded opens).1.segment.Writable) := by
  unfold WALManager.rollSegmentIfNeeded
  by_cases small : manager.segment.size < maxSegmentSize
  · rw [if_pos small]
    exact ⟨orderly.rolled_refl, fun _ writable => writable⟩
  rw [if_neg small]
  have closed := orderly.tidy.lookup_close
  have headed : WALSegment.AllHeaded (manager.segment.close manager.directory).2 := by
    intro id
    rw [closed]
    exact orderly.tidy.headed id
  cases opens with
  | false =>
    have fresh (id : Nat) : WALSegment.fileBytes { segmentId := manager.segmentId + 1 }
        (manager.segment.close manager.directory).2 id = manager.segment.fileBytes
        manager.directory id := by rw [WALSegment.fileBytes_of_pending_nil rfl, closed]
    have refused : WALSegment.openAppend { segmentId := manager.segmentId + 1 }
        (manager.segment.close manager.directory).2 manager.nextLsn false = none := rfl
    simp only [refused]
    refine ⟨⟨⟨rfl, fun _ => rfl, ?_, ?_⟩, ?_, rfl, rfl, rfl,
      Nat.le_succ _⟩, fun returns => nomatch returns⟩
    · exact fun id => (fresh id).symm ▸ orderly.tidy.headed id
    · exact fun usable => absurd usable.isOpen (by simp)
    · exact fun id => congrArg (List.drop _) (fresh id)
  | true =>
    obtain ⟨opened, files, result, _⟩ := WALSegment.openAppend_spec
      { segmentId := manager.segmentId + 1 } (manager.segment.close manager.directory).2
      manager.nextLsn (Nat.lt_succ_self manager.segmentId)
    obtain ⟨writable, openedId, tidy, bytes⟩ := WALSegment.openAppend_tidy headed result
    simp only [result]
    refine ⟨⟨⟨openedId, tidy⟩, ?_, rfl, rfl, rfl, Nat.le_succ _⟩, fun _ _ => writable⟩
    intro id
    exact (bytes id).trans (congrArg (List.drop _) (closed id))

/-- A write without a failure: the stream takes the swapped buffer, or the
segment is not open for writing and nothing changes. -/
theorem Orderly.writeFlushBuffer :
    (manager.segment.Writable ∧ (manager.writeFlushBuffer .succeeds).2 = .ok () ∧
        (manager.writeFlushBuffer .succeeds).1.segment.Writable ∧
        Wrote manager (manager.writeFlushBuffer .succeeds).1) ∨
      (¬ manager.segment.Writable ∧ ∀ write,
        manager.writeFlushBuffer write = (manager, .error .writeSegment)) := by
  by_cases writable : manager.segment.Writable
  · obtain ⟨written, result, sameId, usable, tidy, here, elsewhere⟩ :=
      orderly.tidy.append writable manager.flushBuffer
    refine .inl ⟨writable, ?_⟩
    simp only [WALManager.writeFlushBuffer, result]
    by_cases off : manager.mode = .off
    · simp only [if_pos off]
      refine ⟨trivial, usable, ⟨sameId.trans orderly.segment_id, tidy⟩, ?_, ?_, rfl, rfl, rfl, rfl⟩
      · rw [← orderly.segment_id]
        exact here
      · rw [← orderly.segment_id]
        exact elsewhere
    simp only [if_neg off]
    obtain ⟨flushedId, flushedWritable⟩ := WALSegment.flush_frame written manager.directory
    have bytes (id : Nat) := congrArg (List.drop WALSegment.headerSize)
      (WALSegment.fileBytes_flush usable manager.directory id)
    refine ⟨trivial, flushedWritable.mpr usable, ⟨(flushedId.trans sameId).trans
      orderly.segment_id, tidy.flush usable⟩, ?_, ?_, rfl, rfl, rfl, rfl⟩
    · rw [← orderly.segment_id]
      exact (bytes manager.segment.segmentId).trans here
    · rw [← orderly.segment_id]
      exact fun id ne => (bytes id).trans (elsewhere id ne)
  refine .inr ⟨writable, fun write => ?_⟩
  have unusable : (!manager.segment.writeMode || !manager.segment.isOpen ||
      !manager.segment.good) = true := by
    by_contra usable
    simp only [Bool.or_eq_true, Bool.not_eq_true', not_or, Bool.not_eq_false] at usable
    exact writable ⟨usable.1.2, usable.1.1, usable.2⟩
  simp only [WALManager.writeFlushBuffer, WALSegment.append, unusable, if_true]

theorem Orderly.writeFlushBuffer_fails :
    Rolled manager (manager.writeFlushBuffer (.fails manager.segment.pending.length)).1 := by
  by_cases writable : manager.segment.Writable
  · obtain ⟨broken, files, result, sameId, tidy, bytes⟩ :=
      orderly.tidy.append_fails writable manager.flushBuffer
    simp only [WALManager.writeFlushBuffer, result]
    exact ⟨⟨sameId.trans orderly.segment_id, tidy⟩,
      fun id => congrArg (List.drop _) (bytes id), rfl, rfl, rfl, le_refl _⟩
  · obtain ⟨usable, _⟩ | ⟨_, unchanged⟩ := orderly.writeFlushBuffer
    · exact absurd usable writable
    · rw [unchanged]
      exact orderly.rolled_refl

end

theorem create_orderly {directory : WALDirectory} {mode : DurabilityMode}
    {opens : Bool} (headed : WALSegment.AllHeaded directory)
    (created : create directory mode opens = .ok manager) :
    manager.Orderly ∧ manager.segmentId = 1 ∧ manager.nextLsn = 1 ∧
      manager.segment.Writable ∧ manager.buffer = [] ∧
      manager.flushBuffer = [] ∧
      ∀ id, manager.recordBytes id =
        ((directory.lookup id).getD []).drop WALSegment.headerSize := by
  cases opens with
  | false => simp [create, WALSegment.openAppend] at created
  | true =>
    obtain ⟨opened, files, result, _⟩ := WALSegment.openAppend_spec { segmentId := 1 } directory 1
      Nat.zero_lt_one
    obtain ⟨writable, openedId, tidy, bytes⟩ := WALSegment.openAppend_tidy headed result
    simp only [create, result] at created
    cases created
    exact ⟨⟨openedId, tidy⟩, rfl, rfl, writable, rfl, rfl, bytes⟩

end WALManager

end KlyroDB
