import KlyroDB.LogRecord

/-!
# The write-ahead log manager

`wal/wal_manager.cpp` with its buffer and segment files.  The answers of the file
system are arguments of the calls.  A write passes through the stream of the
segment and reaches the file when the stream is flushed.
-/

namespace KlyroDB

open ByteMemory

inductive DurabilityMode
  | full
  | normal
  | off
  deriving DecidableEq, Repr

/-- The contents of the segment files, by segment identifier. -/
abbrev WALDirectory := AList fun _ : Nat => List UInt8

inductive SegmentWrite
  | succeeds
  | fails (stored : Nat)
  deriving DecidableEq, Repr

/-- How `m_file.flush()` ends.  Nobody looks at a failure, which stores only
some of the bytes in the stream and loses the others. -/
inductive StreamFlush
  | succeeds
  | fails (stored : Nat)
  deriving DecidableEq, Repr

structure FlushIO where
  opens : Bool := true
  write : SegmentWrite := .succeeds
  deriving DecidableEq, Repr

structure WALSegment where
  segmentId : Nat
  startLsn : Nat := LSN.invalid
  size : Nat := 0
  isOpen : Bool := false
  writeMode : Bool := false
  good : Bool := true
  pending : List UInt8 := []
  deriving DecidableEq, Repr

namespace WALSegment

def magic : Nat := 0x4B4C5741

def formatVersion : Nat := 1

def headerSize : Nat := 24

def headerBytes (segmentId startLsn : Nat) : List UInt8 :=
  leBytes 4 magic ++ leBytes 4 formatVersion ++ leBytes 8 segmentId ++ leBytes 8 startLsn

def stored (segment : WALSegment) (directory : WALDirectory) : List UInt8 :=
  (directory.lookup segment.segmentId).getD []

def flush (segment : WALSegment) (directory : WALDirectory) (stream : StreamFlush := .succeeds) :
    WALSegment × WALDirectory :=
  if segment.isOpen && segment.writeMode && segment.good then
    match stream with
    | .succeeds =>
        ({ segment with pending := [] },
          directory.insert segment.segmentId (segment.stored directory ++ segment.pending))
    | .fails count =>
        ({ segment with good := false, pending := [] },
          directory.insert segment.segmentId (segment.stored directory ++
            segment.pending.take count))
  else (segment, directory)

def close (segment : WALSegment) (directory : WALDirectory) (stream : StreamFlush := .succeeds) :
    WALSegment × WALDirectory :=
  if segment.isOpen then
    let (flushed, files) := segment.flush directory stream
    ({ flushed with isOpen := false }, files)
  else (segment, directory)

/-- `open_append`: an existing file with the right magic number is continued,
any other one is replaced by a new file. -/
def openAppend (segment : WALSegment) (directory : WALDirectory)
    (startLsn : Nat) (opens : Bool) : Option (WALSegment × WALDirectory) :=
  let opened : WALSegment :=
    { segment with startLsn := startLsn, isOpen := true, writeMode := true,
                   good := true, pending := [] }
  let content := segment.stored directory
  if opens = false then none
  else if content.take 4 = leBytes 4 magic then
    some ({ opened with size := content.length }, directory)
  else
    some ({ opened with size := headerSize,
                        pending := headerBytes segment.segmentId startLsn },
      directory.insert segment.segmentId [])

/-- `append`; the stream stays unusable after a failed write.  A write that
the stream only buffers succeeds, whatever happens to its bytes later. -/
def append (segment : WALSegment) (directory : WALDirectory) (data : List UInt8)
    (write : SegmentWrite) : Bool × WALSegment × WALDirectory :=
  if !segment.writeMode || !segment.isOpen || !segment.good then
    (false, segment, directory)
  else
    match write with
    | .succeeds =>
        (true, { segment with size := segment.size + data.length,
                              pending := segment.pending ++ data }, directory)
    | .fails count =>
        (false, { segment with good := false, pending := [] },
          directory.insert segment.segmentId (segment.stored directory ++
            (segment.pending ++ data).take count))

end WALSegment

namespace LogBuffer

def capacity : Nat := 1024 * 1024 * 4

/-- `LogBuffer::append`; `none` when the buffer is full. -/
def append (buffer : List UInt8) (record : LogRecord) : Option (List UInt8) :=
  if buffer.length + record.getSize > capacity then none
  else some (buffer ++ record.serialize)

end LogBuffer

inductive WALError
  | openSegment
  | rollSegment
  | writeSegment
  | recordTooLarge
  deriving DecidableEq, Repr

structure WALManager where
  mode : DurabilityMode := .normal
  nextLsn : Nat := 1
  flushedLsn : Nat := 0
  buffer : List UInt8 := []
  flushBuffer : List UInt8 := []
  segment : WALSegment
  segmentId : Nat := 1
  directory : WALDirectory

namespace WALManager

def maxSegmentSize : Nat := 16 * 1024 * 1024

def create (directory : WALDirectory) (mode : DurabilityMode)
    (opens : Bool) : Except WALError WALManager :=
  match ({ segmentId := 1 } : WALSegment).openAppend directory 1 opens with
  | none => .error .openSegment
  | some (segment, files) => .ok { mode := mode, segment := segment, directory := files }

def rollSegmentIfNeeded (manager : WALManager) (opens : Bool) (stream : StreamFlush := .succeeds) :
    WALManager × Except WALError Unit :=
  if manager.segment.size < maxSegmentSize then (manager, .ok ())
  else
    let (_, closed) := manager.segment.close manager.directory stream
    let fresh : WALSegment := { segmentId := manager.segmentId + 1 }
    match fresh.openAppend closed manager.nextLsn opens with
    | none =>
        ({ manager with segment := fresh, segmentId := manager.segmentId + 1,
                        directory := closed }, .error .rollSegment)
    | some (segment, files) =>
        ({ manager with segment := segment,
                        segmentId := manager.segmentId + 1,
                        directory := files }, .ok ())

/-- The part of `execute_flush` after the roll: write the swapped buffer,
flush the stream and advance the flushed LSN. -/
def writeFlushBuffer (manager : WALManager) (write : SegmentWrite)
    (stream : StreamFlush := .succeeds) : WALManager × Except WALError Unit :=
  match manager.segment.append manager.directory manager.flushBuffer write with
  | (false, segment, files) =>
      ({ manager with segment := segment, directory := files }, .error .writeSegment)
  | (true, segment, files) =>
      let (synced, durable) :=
        if manager.mode = .off then (segment, files) else segment.flush files stream
      ({ manager with segment := synced, directory := durable,
                      flushedLsn := max manager.flushedLsn (manager.nextLsn - 1),
                      flushBuffer := [] }, .ok ())

def executeFlush (manager : WALManager) (io : FlushIO) : WALManager × Except WALError Unit :=
  if manager.buffer.isEmpty then (manager, .ok ())
  else
    let swapped : WALManager :=
      { manager with buffer := manager.flushBuffer,
                     flushBuffer := manager.buffer }
    match swapped.rollSegmentIfNeeded io.opens with
    | (rolled, .error error) => (rolled, .error error)
    | (rolled, .ok _) => rolled.writeFlushBuffer io.write

def flush (manager : WALManager) (io : FlushIO) : WALManager × Except WALError Unit :=
  manager.executeFlush io

def flushUpTo (manager : WALManager) (targetLsn : Nat) (io : FlushIO) :
    WALManager × Except WALError Unit :=
  if targetLsn ≤ manager.flushedLsn then (manager, .ok ())
  else manager.executeFlush io

/-- `append`: the LSN is taken before the record is known to fit. -/
def append (manager : WALManager) (record : LogRecord) (io : FlushIO) :
    WALManager × Except WALError Nat :=
  let assigned := manager.nextLsn
  let numbered := { record with lsn := assigned }
  let counted := { manager with nextLsn := assigned + 1 }
  match LogBuffer.append counted.buffer numbered with
  | some buffer => ({ counted with buffer := buffer }, .ok assigned)
  | none =>
      match counted.flush io with
      | (flushed, .error error) => (flushed, .error error)
      | (flushed, .ok _) =>
          match LogBuffer.append flushed.buffer numbered with
          | some buffer => ({ flushed with buffer := buffer }, .ok assigned)
          | none => (flushed, .error .recordTooLarge)

end WALManager

inductive WALCall
  | append (record : LogRecord) (io : FlushIO)
  | flush (io : FlushIO)
  | flushUpTo (targetLsn : Nat) (io : FlushIO)
  deriving DecidableEq, Repr

structure WALSystem where
  manager : WALManager
  appended : List LogRecord := []

namespace WALSystem

def step (system : WALSystem) : WALCall → WALSystem
  | .append record io =>
      { manager := (system.manager.append record io).1
        appended := system.appended ++ [{ record with lsn := system.manager.nextLsn }] }
  | .flush io => { system with manager := (system.manager.flush io).1 }
  | .flushUpTo targetLsn io => { system with manager := (system.manager.flushUpTo targetLsn io).1 }

def run (manager : WALManager) (calls : List WALCall) : WALSystem :=
  calls.foldl step { manager := manager }

end WALSystem

end KlyroDB
