import KlyroDB.LogRecord

/-!
# Reading the log

`LogRecord::deserialize` and `wal/log_reader.cpp` over the bytes of the opened
segments.  The reader stops at a record that the segment does not hold in full.
-/

namespace KlyroDB

open LogRecord (headerSize)
open ByteMemory

namespace LogRecordType

def ofCode (value : UInt8) : LogRecordType :=
  match value with
  | 0 => .invalid
  | 1 => .txnBegin
  | 2 => .txnCommit
  | 3 => .txnAbort
  | 4 => .txnEnd
  | 10 => .insert
  | 11 => .update
  | 12 => .delete
  | 20 => .checkpointBegin
  | 21 => .checkpointEnd
  | 30 => .clr
  | 40 => .pageAllocate
  | 41 => .pageFree
  | value => .other value

end LogRecordType

structure StoredRecord where
  record : LogRecord
  checksum : UInt32
  deriving DecidableEq, Repr

namespace StoredRecord

def verifyChecksum (stored : StoredRecord) : Bool :=
  stored.checksum == stored.record.calculateChecksum

end StoredRecord

namespace LogRecord

/-- The record as `serialize` leaves it, with its checksum up to date. -/
def stored (record : LogRecord) : StoredRecord :=
  ⟨record, record.calculateChecksum⟩

/-- `deserialize`; `none` stands for the result 0. -/
def deserialize (data : List UInt8) : Option StoredRecord :=
  if data.length < headerSize then none
  else
    let payloadLen := readNat data 33 4
    if data.length < headerSize + payloadLen then none
    else
      some
        { record :=
            { lsn := readNat data 0 8
              txnId := readNat data 8 8
              prevLsn := readNat data 16 8
              undoNextLsn := readNat data 24 8
              type := .ofCode (data.getD 32 0)
              payload := slice data headerSize payloadLen }
          checksum := UInt32.ofNat (readNat data 37 4) }

/-- The fields fit into their C++ types, the type is the enumerator of its
code, and the size of the record does not overflow. -/
structure Representable (record : LogRecord) : Prop where
  lsn_lt : record.lsn < 2 ^ 64
  txnId_lt : record.txnId < 2 ^ 64
  prevLsn_lt : record.prevLsn < 2 ^ 64
  undoNextLsn_lt : record.undoNextLsn < 2 ^ 64
  type_eq : LogRecordType.ofCode record.type.code = record.type
  payload_lt : record.payload.length < 2 ^ 32 - headerSize

section Fields

variable {record : LogRecord}

theorem Representable.getPayloadSize_eq (typed : record.Representable) :
    record.getPayloadSize = record.payload.length :=
  Nat.mod_eq_of_lt (by
    have bound := typed.payload_lt
    omega)

theorem Representable.length_serialize (typed : record.Representable) :
    record.serialize.length = headerSize + record.payload.length := by
  rw [LogRecord.length_serialize, typed.getPayloadSize_eq]

theorem Representable.getSize_eq (typed : record.Representable) :
    record.getSize = record.serialize.length := by
  have bound := typed.payload_lt
  rw [typed.length_serialize, getSize, typed.getPayloadSize_eq, Nat.mod_eq_of_lt (by omega)]

theorem Representable.serialize_eq (typed : record.Representable) :
    record.serialize = leBytes 8 record.lsn ++ (leBytes 8 record.txnId ++
        (leBytes 8 record.prevLsn ++ (leBytes 8 record.undoNextLsn ++
          ([record.type.code] ++ (leBytes 4 record.payload.length ++
            (leBytes 4 record.calculateChecksum.toNat ++ record.payload)))))) := by
  rw [serialize, fieldBytes, typed.getPayloadSize_eq, List.take_length]
  simp only [List.append_assoc]

theorem Representable.payloadLen (typed : record.Representable) (rest : List UInt8) :
    readNat (record.serialize ++ rest) 33 4 = record.payload.length := by
  have bound := typed.payload_lt
  rw [typed.serialize_eq]
  simp only [List.append_assoc, readNat_append_of_le, length_leBytes, List.length_singleton,
    Nat.reduceLeDiff, Nat.reduceSub, readNat_leBytes]
  omega

theorem Representable.deserialize_serialize (typed : record.Representable) :
    deserialize record.serialize = some record.stored := by
  have size := typed.length_serialize
  have payloadLen := typed.payloadLen []
  rw [List.append_nil] at payloadLen
  have type : record.serialize.getD 32 0 = record.type.code := by
    rfl
  rw [deserialize, if_neg (by omega), payloadLen]
  rw [if_neg (by omega), type, typed.type_eq, headerSize, typed.serialize_eq]
  simp only [readNat_append_of_le, slice_append_of_le, length_leBytes, List.length_singleton,
    Nat.reduceLeDiff, Nat.reduceSub, readNat_leBytes]
  rw [show 256 ^ 8 = 2 ^ 64 from rfl, show 256 ^ 4 = 2 ^ 32 from rfl,
    Nat.mod_eq_of_lt typed.lsn_lt, Nat.mod_eq_of_lt typed.txnId_lt,
    Nat.mod_eq_of_lt typed.prevLsn_lt, Nat.mod_eq_of_lt typed.undoNextLsn_lt,
    Nat.mod_eq_of_lt record.calculateChecksum.toNat_lt, UInt32.ofNat_toNat, slice, List.drop_zero,
    List.take_length]
  rfl

theorem verifyChecksum_stored (record : LogRecord) : record.stored.verifyChecksum = true :=
  beq_self_eq_true _

end Fields

end LogRecord

/-- The reader at an offset of the opened segment, with the segments that
follow it. -/
structure LogReader where
  current : List UInt8
  offset : Nat
  later : List (List UInt8)
  deriving DecidableEq, Repr

namespace LogReader

def segmentHeaderSize : Nat := 24

def seekToFirst : List (List UInt8) → Option LogReader
  | [] => none
  | first :: later => some ⟨first, segmentHeaderSize, later⟩

/-- A turn of the loop of `read_next` in a segment that has room for the
header of a record. -/
def readRecord (reader : LogReader) : Option StoredRecord × LogReader :=
  let remaining := reader.current.length - reader.offset
  let payloadSize := readNat reader.current (reader.offset + 33) 4
  if remaining < headerSize + payloadSize then (none, reader)
  else
    let fullSize := (headerSize + payloadSize) % 2 ^ 32
    match LogRecord.deserialize (slice reader.current reader.offset fullSize) with
    | none => (none, reader)
    | some record =>
        if record.verifyChecksum then
          (some record, { reader with offset := reader.offset + fullSize })
        else (none, reader)

/-- The loop of `read_next`, which goes on to the next segment when the current
one is at its end. -/
def readNextFrom : List (List UInt8) → List UInt8 → Nat → Option StoredRecord × LogReader
  | [], current, offset =>
      if current.length - offset < headerSize then
        (none, ⟨current, offset, []⟩)
      else readRecord ⟨current, offset, []⟩
  | next :: later, current, offset =>
      if current.length - offset < headerSize then
        readNextFrom later next segmentHeaderSize
      else readRecord ⟨current, offset, next :: later⟩

def readNext (reader : LogReader) : Option StoredRecord × LogReader :=
  readNextFrom reader.later reader.current reader.offset

/-- The reader after a number of calls. -/
def afterCalls (reader : LogReader) (calls : Nat) : LogReader :=
  (fun reader => reader.readNext.2)^[calls] reader

/-- What the reader has still to return: the records that follow in the opened
segment and in the later ones, up to a record that the last segment does not
hold in full. -/
inductive Holds : LogReader → List LogRecord → Prop
  | torn (current : List UInt8) (offset : Nat) (record : LogRecord) (typed : record.Representable)
      (count : Nat) (cut : count < record.serialize.length)
      (bytes : current.drop offset = record.serialize.take count) : Holds ⟨current, offset, []⟩ []
  | record (current rest : List UInt8) (offset : Nat) (later : List (List UInt8))
      (record : LogRecord) (records : List LogRecord) (typed : record.Representable)
      (bytes : current.drop offset = record.serialize ++ rest) (more : Holds
      ⟨current, offset + record.serialize.length, later⟩ records) : Holds ⟨current, offset, later⟩
      (record :: records)
  | next (current next : List UInt8) (offset : Nat) (later : List (List UInt8))
      (records : List LogRecord) (ended : current.drop offset = []) (more : Holds
      ⟨next, segmentHeaderSize, later⟩ records) : Holds ⟨current, offset, next :: later⟩ records

section ReadNext

theorem slice_drop (data : List UInt8) (offset start length : Nat) :
    slice data (offset + start) length = slice (data.drop offset) start length := by
  rw [slice, slice, List.drop_drop]

variable {reader : LogReader}

theorem readNext_of_room
    (room : headerSize ≤ (reader.current.drop reader.offset).length) :
    reader.readNext = reader.readRecord := by
  rw [List.length_drop] at room
  obtain ⟨current, offset, later⟩ := reader
  cases later with
  | nil | cons next later => exact if_neg (Nat.not_lt.mpr room)

theorem readRecord_of_record {record : LogRecord} {rest : List UInt8} (typed : record.Representable)
    (bytes : reader.current.drop reader.offset = record.serialize ++ rest) :
    reader.readRecord =
      (some record.stored, { reader with offset := reader.offset + record.serialize.length }) := by
  have size := typed.length_serialize
  have small := typed.payload_lt
  have room : record.serialize.length ≤ reader.current.length - reader.offset := by
    rw [← List.length_drop, bytes, List.length_append]
    exact Nat.le_add_right _ _
  have payloadSize : readNat reader.current (reader.offset + 33) 4 = record.payload.length := by
    rw [readNat, slice_drop, bytes]
    exact typed.payloadLen rest
  have fullSize := typed.getSize_eq
  rw [LogRecord.getSize, typed.getPayloadSize_eq] at fullSize
  have whole : slice reader.current reader.offset record.serialize.length = record.serialize := by
    rw [slice, bytes, List.take_left]
  rw [readRecord, payloadSize]
  dsimp only
  rw [if_neg (by omega), fullSize, whole, typed.deserialize_serialize]
  dsimp only
  rw [if_pos record.verifyChecksum_stored]

/-- A record that the last segment does not hold in full is not returned. -/
theorem readNext_of_torn {current : List UInt8} {offset count : Nat}
    {record : LogRecord} (typed : record.Representable) (cut : count < record.serialize.length)
    (bytes : current.drop offset = record.serialize.take count) :
    readNext ⟨current, offset, []⟩ = (none, ⟨current, offset, []⟩) := by
  have size := typed.length_serialize
  have remaining : current.length - offset = count := by
    rw [← List.length_drop, bytes, List.length_take]
    omega
  by_cases short : count < headerSize
  · exact if_pos (show current.length - offset < headerSize by omega)
  have payloadSize : readNat current (offset + 33) 4 = record.payload.length := by
    have peeked := typed.payloadLen []
    rw [List.append_nil] at peeked
    rw [readNat, slice_drop, bytes, ← peeked, readNat]
    congr 1
    refine slice_congr fun index _ last => ?_
    rw [List.getElem?_take_of_lt]
    rw [headerSize] at short
    omega
  have room : headerSize ≤ (current.drop offset).length := by
    rw [List.length_drop]
    omega
  rw [readNext_of_room room, readRecord]
  have torn : current.length - offset < headerSize + record.payload.length := by omega
  rw [payloadSize]
  exact if_pos torn

/-- One call returns the next record, if there is one.  It lies in the opened segment or at the
beginning of a later one, which is open after the call. -/
theorem Holds.readNext {expected : List LogRecord} (holds : Holds reader expected) :
    reader.readNext.1 = expected.head?.map LogRecord.stored ∧
      Holds reader.readNext.2 expected.tail ∧
      ∀ record ∈ expected.head?, ∃ opened, Holds opened expected ∧
        reader.readNext.2 = { opened with offset := opened.offset + record.getSize } := by
  induction holds with
  | torn current offset record typed count cut bytes =>
    rw [readNext_of_torn typed cut bytes]
    exact ⟨rfl, .torn current offset record typed count cut bytes, nofun⟩
  | record current rest offset later record records typed bytes more _ =>
    have room : headerSize ≤ (current.drop offset).length := by
      rw [bytes, List.length_append, typed.length_serialize]
      omega
    rw [readNext_of_room room, readRecord_of_record typed bytes]
    refine ⟨rfl, more, ?_⟩
    rintro _ ⟨⟩
    exact ⟨_, .record current rest offset later _ _ typed bytes more, by rw [typed.getSize_eq]⟩
  | next current next offset later records ended _ ih =>
    have short : current.length - offset < headerSize := by
      rw [← List.length_drop, ended]
      decide
    have moved : LogReader.readNext ⟨current, offset, next :: later⟩ = LogReader.readNext
        ⟨next, segmentHeaderSize, later⟩ := if_pos short
    rw [moved]
    exact ih

theorem Holds.afterCalls {expected : List LogRecord} (holds : Holds reader expected) (calls : Nat) :
    (reader.afterCalls calls).readNext.1 = expected[calls]?.map LogRecord.stored := by
  induction calls generalizing reader expected with
  | zero =>
    rw [← List.head?_eq_getElem?]
    exact holds.readNext.1
  | succ calls ih =>
    have later := ih holds.readNext.2.1
    rw [← List.getElem?_tail]
    exact later

end ReadNext

section Files

theorem holds_records {records expected : List LogRecord}
    (typed : ∀ record ∈ records, record.Representable)
    {current rest : List UInt8} {offset : Nat} {later : List (List UInt8)}
    (bytes : current.drop offset = records.flatMap LogRecord.serialize ++ rest)
    (more : Holds ⟨current, offset +
      (records.flatMap LogRecord.serialize).length, later⟩ expected) :
    Holds ⟨current, offset, later⟩ (records ++ expected) := by
  induction records generalizing offset with
  | nil => exact more
  | cons record records ih =>
    obtain ⟨first, others⟩ := List.forall_mem_cons.mp typed
    rw [List.flatMap_cons, List.append_assoc] at bytes
    refine .record current _ offset later record (records ++ expected) first bytes (ih others ?_ ?_)
    · rw [← List.drop_drop, bytes, List.drop_left]
    · rw [Nat.add_assoc, ← List.length_append, ← List.flatMap_cons]
      exact more

/-- The records whose bytes end at or before the cut, in a segment whose next
record starts at the given position. -/
def wholeBefore (cut : Nat) : Nat → List LogRecord → List LogRecord
  | _, [] => []
  | start, record :: records =>
      let stop := start + record.serialize.length
      if stop ≤ cut then record :: wholeBefore cut stop records
      else wholeBefore cut stop records

theorem wholeBefore_of_lt {cut start : Nat} (beyond : cut < start)
    (records : List LogRecord) : wholeBefore cut start records = [] := by
  induction records generalizing start with
  | nil => rfl
  | cons record records ih =>
    rw [wholeBefore, if_neg (by omega)]
    exact ih (by omega)

theorem holds_cut {records : List LogRecord} (typed : ∀ record ∈ records, record.Representable)
    {before current : List UInt8} {cut : Nat} (inside : before.length ≤ cut) (bytes : current =
      (before ++ records.flatMap LogRecord.serialize).take cut) :
    Holds ⟨current, before.length, []⟩ (wholeBefore cut before.length records) := by
  induction records generalizing before with
  | nil =>
    have typedDefault : LogRecord.Representable {} :=
      ⟨by decide, by decide, by decide, by decide, rfl, by decide⟩
    refine .torn current before.length {} typedDefault 0 ?_ ?_
    · rw [typedDefault.length_serialize]
      decide
    · rw [bytes, List.flatMap_nil, List.append_nil,
        List.take_of_length_le inside, List.drop_length, List.take_zero]
  | cons record records ih =>
    obtain ⟨first, others⟩ := List.forall_mem_cons.mp typed
    rw [List.flatMap_cons] at bytes
    have dropped : current.drop before.length = (record.serialize ++ records.flatMap
        LogRecord.serialize).take (cut - before.length) := by
      rw [bytes, List.drop_take, List.drop_left]
    rw [wholeBefore]
    by_cases whole : before.length + record.serialize.length ≤ cut
    · rw [if_pos whole]
      refine .record current ((records.flatMap LogRecord.serialize).take (cut - before.length -
        record.serialize.length)) before.length [] record _ first ?_ ?_
      · rw [dropped, List.take_append, List.take_of_length_le (by omega)]
      rw [← List.length_append]
      refine ih others ?_ ?_
      · rw [List.length_append]
        exact whole
      · rw [bytes, List.append_assoc]
    · rw [if_neg whole, wholeBefore_of_lt (Nat.not_le.mp whole)]
      refine .torn current before.length record first (cut - before.length) (by omega) ?_
      rw [dropped, List.take_append_of_le_length (by omega)]

end Files

end LogReader

/-- A segment with its header and the records that were appended to it. -/
structure LogSegment where
  header : List UInt8
  header_length : header.length = LogReader.segmentHeaderSize
  records : List LogRecord

namespace LogSegment

def bytes (segment : LogSegment) : List UInt8 :=
  segment.header ++ segment.records.flatMap LogRecord.serialize

end LogSegment

namespace LogReader

theorem holds_segments (segments : List LogSegment) (last : LogSegment)
    {cut : Nat} (afterHeader : segmentHeaderSize ≤ cut) (typed : ∀ segment ∈ segments ++ [last],
      ∀ record ∈ segment.records, record.Representable) :
    ∃ first later, segments.map LogSegment.bytes ++ [last.bytes.take cut] = first :: later ∧
      Holds ⟨first, segmentHeaderSize, later⟩ (segments.flatMap LogSegment.records ++
          wholeBefore cut segmentHeaderSize last.records) := by
  induction segments with
  | nil =>
    refine ⟨last.bytes.take cut, [], rfl, ?_⟩
    have holds := @holds_cut last.records (typed last (by simp)) last.header (last.bytes.take cut)
      cut (by rw [last.header_length]; exact afterHeader) rfl
    rw [last.header_length] at holds
    exact holds
  | cons segment segments ih =>
    obtain ⟨next, later, files, holds⟩ := ih fun other mem =>
      typed other (List.mem_cons_of_mem _ mem)
    refine ⟨segment.bytes, next :: later, ?_, ?_⟩
    · rw [List.map_cons, List.cons_append, files]
    rw [List.flatMap_cons, List.append_assoc]
    have contents : segment.bytes.drop segmentHeaderSize =
        segment.records.flatMap LogRecord.serialize ++ [] := by
      rw [← segment.header_length, LogSegment.bytes, List.drop_left, List.append_nil]
    refine holds_records (typed segment (by simp)) contents
      (.next segment.bytes next _ later _ ?_ holds)
    rw [← List.drop_drop, contents, List.append_nil, List.drop_length]

/-- The calls of `read_next` over segments of which the last one is cut behind
its header return the records wholly before the cut, in order and unchanged,
and then nothing. -/
theorem reads_before_cut (segments : List LogSegment) (last : LogSegment)
    (cut : Nat) (afterHeader : segmentHeaderSize ≤ cut) (typed : ∀ segment ∈ segments ++ [last],
      ∀ record ∈ segment.records, record.Representable) :
    ∃ reader, seekToFirst (segments.map LogSegment.bytes ++ [last.bytes.take cut]) = some reader ∧
      ∀ calls, (reader.afterCalls calls).readNext.1 = (segments.flatMap LogSegment.records ++
              wholeBefore cut segmentHeaderSize last.records)[calls]?.map LogRecord.stored ∧
          ∀ returned, (reader.afterCalls calls).readNext.1 = some returned →
            returned.verifyChecksum = true := by
  obtain ⟨first, later, files, holds⟩ := holds_segments segments last afterHeader typed
  refine ⟨⟨first, segmentHeaderSize, later⟩, by rw [files, seekToFirst], ?_⟩
  intro calls
  have returns := holds.afterCalls calls
  refine ⟨returns, ?_⟩
  intro returned found
  rw [returns] at found
  obtain ⟨record, _, rfl⟩ := Option.map_eq_some_iff.mp found
  exact record.verifyChecksum_stored

/-- The loop of `seek_to_lsn`, with the number of rounds left; there is no
reader when it returns false. -/
def seekFrom (lsn : Nat) : Nat → LogReader → Option LogReader
  | 0, _ => none
  | rounds + 1, reader =>
      match reader.readNext with
      | (none, _) => none
      | (some found, next) =>
          if lsn ≤ found.record.lsn then
            some { next with offset := next.offset - found.record.getSize }
          else seekFrom lsn rounds next

def seekToLsn (files : List (List UInt8)) (lsn rounds : Nat) : Option LogReader :=
  (seekToFirst files).bind (seekFrom lsn rounds)

/-- The reader is left before the first record that reaches the LSN. -/
theorem Holds.seekFrom {reader : LogReader} {expected : List LogRecord}
    (holds : Holds reader expected) (lsn : Nat) {rounds : Nat} (enough : expected.length < rounds) :
    ((LogReader.seekFrom lsn rounds reader).isSome = true ↔ ∃ record ∈ expected, lsn ≤ record.lsn) ∧
      ∀ found, LogReader.seekFrom lsn rounds reader = some found →
        Holds found (expected.dropWhile fun record => record.lsn < lsn) := by
  induction expected generalizing reader rounds with
  | nil =>
    obtain ⟨rounds, rfl⟩ := Nat.exists_eq_succ_of_ne_zero (Nat.ne_zero_of_lt enough)
    have ended := holds.readNext.1
    rw [LogReader.seekFrom]
    generalize reader.readNext = result at ended
    obtain ⟨answer, next⟩ := result
    obtain rfl : answer = none := ended
    simp
  | cons record records ih =>
    obtain ⟨rounds, rfl⟩ := Nat.exists_eq_succ_of_ne_zero (Nat.ne_zero_of_lt enough)
    obtain ⟨answer, more, opens⟩ := holds.readNext
    obtain ⟨opened, here, next⟩ := opens record rfl
    have returned : reader.readNext = (some record.stored, _) := Prod.ext answer next
    rw [returned] at more
    rw [LogReader.seekFrom, returned]
    by_cases reached : lsn ≤ record.lsn
    · simp [LogRecord.stored, reached, Nat.not_lt.mpr reached, here]
    · simpa [LogRecord.stored, reached, Nat.not_le.mp reached] using
        ih more (Nat.lt_of_succ_lt_succ enough)

theorem wholeBefore_of_le {cut start : Nat} {records : List LogRecord}
    (inside : start + (records.flatMap LogRecord.serialize).length ≤ cut) :
    wholeBefore cut start records = records := by
  induction records generalizing start with
  | nil => rfl
  | cons record records ih =>
    rw [List.flatMap_cons, List.length_append] at inside
    rw [wholeBefore, if_pos (by omega), ih (by omega)]

/-- `seek_to_lsn` over a log whose last segment is torn: only records that stand
wholly before the cut are found and returned. -/
theorem seekToLsn_torn (segments : List LogSegment) (last : LogSegment)
    {cut : Nat} (afterHeader : segmentHeaderSize ≤ cut) (typed : ∀ segment ∈ segments ++ [last],
      ∀ record ∈ segment.records, record.Representable)
    (lsn rounds : Nat) {expected : List LogRecord}
    (log : segments.flatMap LogSegment.records ++
      wholeBefore cut segmentHeaderSize last.records = expected)
    (enough : expected.length < rounds) :
    let sought := seekToLsn (segments.map LogSegment.bytes ++ [last.bytes.take cut]) lsn rounds
    (sought.isSome = true ↔ ∃ record ∈ expected, lsn ≤ record.lsn) ∧
      ∀ reader, sought = some reader → ∀ calls, (reader.afterCalls calls).readNext.1 =
        (expected.dropWhile fun record => record.lsn < lsn)[calls]?.map LogRecord.stored := by
  obtain ⟨first, later, files, holds⟩ := holds_segments segments last afterHeader typed
  rw [log] at holds
  rw [seekToLsn, files, seekToFirst]
  obtain ⟨reached, suffix⟩ := holds.seekFrom lsn enough
  exact ⟨reached, fun reader sought => (suffix reader sought).afterCalls⟩

/-- `seek_to_lsn` over the segments of a log succeeds exactly if some record
reaches the LSN, and then the calls of `read_next` return the log from the first
such record on. -/
theorem reads_from_lsn (segments : List LogSegment)
    (typed : ∀ segment ∈ segments, ∀ record ∈ segment.records, record.Representable)
    (lsn rounds : Nat) (enough : (segments.flatMap LogSegment.records).length < rounds) :
    ((seekToLsn (segments.map LogSegment.bytes) lsn rounds).isSome = true ↔
        ∃ record ∈ segments.flatMap LogSegment.records, lsn ≤ record.lsn) ∧
      ∀ reader, seekToLsn (segments.map LogSegment.bytes) lsn rounds = some reader →
        ∀ calls, (reader.afterCalls calls).readNext.1 =
          ((segments.flatMap LogSegment.records).dropWhile
            fun record => record.lsn < lsn)[calls]?.map LogRecord.stored := by
  rcases segments.eq_nil_or_concat' with rfl | ⟨segments, last, rfl⟩
  · simp [seekToLsn, seekToFirst]
  have whole : wholeBefore last.bytes.length segmentHeaderSize last.records = last.records :=
    wholeBefore_of_le (by simp [LogSegment.bytes, last.header_length])
  have sought := @seekToLsn_torn segments last last.bytes.length
    (by simp [LogSegment.bytes, last.header_length]) typed lsn rounds _
    (by rw [whole, List.flatMap_append, List.flatMap_singleton]) enough
  rwa [List.take_length, ← List.map_singleton, ← List.map_append] at sought

def commitRecord (lsn : Nat) : LogRecord where
  lsn := lsn
  txnId := 1
  type := .txnCommit
  payload := [7]

theorem representable_commitRecord {lsn : Nat} (small : lsn < 2 ^ 64) :
    (commitRecord lsn).Representable := by
  refine ⟨small, ?_, ?_, ?_, rfl, ?_⟩
  · exact (show 1 < 2 ^ 64 by decide)
  · exact (show LSN.invalid < 2 ^ 64 by decide)
  · exact (show LSN.invalid < 2 ^ 64 by decide)
  · exact (show 1 < 2 ^ 32 - headerSize by decide)

def commitSegment (lsns : List Nat) : LogSegment where
  header := List.replicate 24 0
  header_length := rfl
  records := lsns.map commitRecord

theorem representable_commitSegment {lsns : List Nat} (small : ∀ lsn ∈ lsns, lsn < 2 ^ 64) :
    ∀ record ∈ (commitSegment lsns).records, record.Representable := by
  intro record mem
  obtain ⟨lsn, inside, rfl⟩ := List.mem_map.mp mem
  exact representable_commitRecord (small lsn inside)

/-- Two segments with three records; the last record has lost one byte. -/
theorem reads_before_cut_torn :
    ∃ reader, seekToFirst ([LogSegment.mk (List.replicate 24 0) rfl [commitRecord 1]].map
              LogSegment.bytes ++ [(LogSegment.mk (List.replicate 24 0) rfl
              [commitRecord 2, commitRecord 3]).bytes.take 107]) = some reader ∧
      (reader.afterCalls 0).readNext.1 = some (commitRecord 1).stored ∧
      (reader.afterCalls 1).readNext.1 = some (commitRecord 2).stored ∧
      (reader.afterCalls 2).readNext.1 = none := by
  obtain ⟨reader, opened, returns⟩ := reads_before_cut [LogSegment.mk (List.replicate 24 0) rfl
    [commitRecord 1]] (LogSegment.mk (List.replicate 24 0) rfl [commitRecord 2, commitRecord 3]) 107
    (by decide) (by
      intro segment member
      simp only [List.cons_append, List.nil_append, List.mem_cons,
        List.not_mem_nil, or_false] at member
      rcases member with rfl | rfl
      · exact @representable_commitSegment [1] (by decide)
      · exact @representable_commitSegment [2, 3] (by decide))
  have size (lsn : Nat) (small : lsn < 2 ^ 64) : (commitRecord lsn).serialize.length = 42 :=
    (representable_commitRecord small).length_serialize
  have kept : wholeBefore 107 segmentHeaderSize
      [commitRecord 2, commitRecord 3] = [commitRecord 2] := by
    rw [wholeBefore, size 2 (by decide), if_pos (by decide), wholeBefore,
      size 3 (by decide), if_neg (by decide), wholeBefore]
  refine ⟨reader, opened, (returns 0).1, ?_, ?_⟩
  · rw [(returns 1).1, kept]
    rfl
  · rw [(returns 2).1, kept]
    rfl

/-- The record with LSN 2 is the first one of the second segment. -/
theorem reads_from_lsn_second :
    ∃ reader, seekToLsn ([commitSegment [1], commitSegment [2, 3]].map LogSegment.bytes) 2 4 =
        some reader ∧
      reader.readNext.1 = some (commitRecord 2).stored := by
  obtain ⟨reached, returns⟩ := reads_from_lsn [commitSegment [1], commitSegment [2, 3]] (by
    intro segment member
    simp only [List.mem_cons, List.not_mem_nil, or_false] at member
    rcases member with rfl | rfl
    · exact representable_commitSegment (by decide)
    · exact representable_commitSegment (by decide)) 2 4 (by decide)
  obtain ⟨reader, sought⟩ := Option.isSome_iff_exists.mp
    (reached.mpr ⟨commitRecord 2, by decide, le_rfl⟩)
  exact ⟨reader, sought, returns reader sought 0⟩

end LogReader

end KlyroDB
