import KlyroDB.WalManager

/-!
# Opening segment files for reading

`WALSegment::open_read` and `WALSegment::read` over files that `open_append` and
`append` have written.  The header is read field by field, and `gcount` reports
the bytes of the last read only.
-/

namespace KlyroDB

open ByteMemory

structure FileStream where
  content : List UInt8
  position : Nat := 0
  good : Bool := true
  gcount : Nat := 0
  deriving DecidableEq, Repr

namespace FileStream

/-- `std::istream::read`; a read that meets the end of the file spoils the
stream. -/
def read (stream : FileStream) (size : Nat) : List UInt8 × FileStream :=
  if stream.good then
    let bytes := slice stream.content stream.position size
    (bytes,
      { stream with
        position := stream.position + bytes.length
        good := bytes.length == size
        gcount := bytes.length })
  else ([], { stream with gcount := 0 })

theorem gcount_read_le (stream : FileStream) (size : Nat) : (stream.read size).2.gcount ≤ size := by
  unfold read
  split_ifs
  · exact List.length_take_le _ _
  · exact Nat.zero_le _

theorem read_append (first middle last : List UInt8) (gcount : Nat) :
    read ⟨first ++ (middle ++ last), first.length, true, gcount⟩ middle.length =
      (middle, ⟨first ++ (middle ++ last), first.length + middle.length, true, middle.length⟩) := by
  simp [read, slice_append_middle]

end FileStream

structure SegmentHeader where
  magic : Nat
  formatVersion : Nat
  segmentId : Nat
  startLsn : Nat
  deriving DecidableEq, Repr

namespace WALSegment

/-- The four reads of `open_read`, with the stream after them. -/
def readHeader (stream : FileStream) : SegmentHeader × FileStream :=
  let (magic, stream) := stream.read 4
  let (formatVersion, stream) := stream.read 4
  let (segmentId, stream) := stream.read 8
  let (startLsn, stream) := stream.read 8
  (⟨leNat magic, leNat formatVersion, leNat segmentId, leNat startLsn⟩, stream)

def openRead (segment : WALSegment) (directory : WALDirectory) : Bool × WALSegment :=
  match directory.lookup segment.segmentId with
  | none => (false, { segment with isOpen := false })
  | some content =>
      let opened := { segment with isOpen := true }
      let (header, stream) := readHeader ⟨content, 0, true, 0⟩
      if stream.gcount ≠ headerSize then (false, opened)
      else if header.magic ≠ magic ∨ header.formatVersion ≠ formatVersion ∨
          header.segmentId ≠ segment.segmentId then (false, opened)
      else
        (true,
          { opened with
            startLsn := header.startLsn
            size := content.length
            writeMode := false })

def read (segment : WALSegment) (directory : WALDirectory)
    (offset size : Nat) : Option (List UInt8) :=
  if segment.isOpen then
    let bytes := slice (segment.stored directory) offset size
    if bytes.length = size then some bytes else none
  else none

def appendAll (segment : WALSegment) (directory : WALDirectory)
    (chunks : List (List UInt8)) : WALSegment × WALDirectory :=
  chunks.foldl (fun state chunk => (state.1.append state.2 chunk .succeeds).2) (segment, directory)

/-- The directory after a segment was created by `open_append`, appended to
and closed. -/
def writeFile (directory : WALDirectory) (segmentId startLsn : Nat)
    (chunks : List (List UInt8)) : WALDirectory :=
  match openAppend { segmentId := segmentId } directory startLsn true with
  | none => directory
  | some (segment, files) =>
      let (written, files) := segment.appendAll files chunks
      (written.close files).2

section

variable {segment : WALSegment} (opened : segment.isOpen = true) (writes : segment.writeMode = true)
  (good : segment.good = true) (directory : WALDirectory)

include opened writes good directory

theorem append_succeeds (data : List UInt8) :
    segment.append directory data .succeeds =
      (true,
        { segment with
          size := segment.size + data.length
          pending := segment.pending ++ data }, directory) := by simp [append, opened, writes, good]

theorem appendAll_succeeds (chunks : List (List UInt8)) :
    segment.appendAll directory chunks =
      ({ segment with
          size := segment.size + chunks.flatten.length
          pending := segment.pending ++ chunks.flatten }, directory) := by
  induction chunks generalizing segment with
  | nil => simp [appendAll]
  | cons chunk chunks ih =>
    have first := append_succeeds opened writes good directory chunk
    have rest := @ih { segment with
        size := segment.size + chunk.length
        pending := segment.pending ++ chunk } opened writes good
    rw [appendAll, List.foldl_cons, first]
    rw [appendAll] at rest
    rw [rest, List.flatten_cons, List.length_append, List.append_assoc, Nat.add_assoc]

end

theorem lookup_writeFile {directory : WALDirectory} {segmentId : Nat}
    (fresh : directory.lookup segmentId = none) (startLsn : Nat) (chunks : List (List UInt8)) :
    (writeFile directory segmentId startLsn chunks).lookup segmentId =
      some (headerBytes segmentId startLsn ++ chunks.flatten) := by
  have empty : WALSegment.stored { segmentId := segmentId } directory = [] := by
    rw [stored, fresh, Option.getD_none]
  have created : openAppend { segmentId := segmentId } directory startLsn
      true =
        some ({ segmentId := segmentId, startLsn := startLsn, isOpen := true,
                writeMode := true, size := headerSize,
                pending := headerBytes segmentId startLsn },
          directory.insert segmentId []) := by
    rw [openAppend, empty]
    rfl
  rw [writeFile, created]
  dsimp only
  rw [appendAll_succeeds rfl rfl rfl]
  simp only [close, flush, stored, if_true, Bool.and_self, AList.lookup_insert,
    Option.getD_some, List.nil_append]

/-- The header fields come back, and the last read was of eight bytes. -/
theorem readHeader_written {segmentId startLsn : Nat}
    (smallId : segmentId < 2 ^ 64) (smallLsn : startLsn < 2 ^ 64) (data : List UInt8) :
    (readHeader ⟨headerBytes segmentId startLsn ++ data, 0, true, 0⟩).1 =
        ⟨magic, formatVersion, segmentId, startLsn⟩ ∧
      (readHeader ⟨headerBytes segmentId startLsn ++ data, 0, true, 0⟩).2.gcount = 8 := by
  have bytes : headerBytes segmentId startLsn ++ data = leBytes 4 magic ++ (leBytes 4 formatVersion
      ++ (leBytes 8 segmentId ++ (leBytes 8 startLsn ++ data))) := by
    rw [headerBytes]
    simp only [List.append_assoc]
  have first := FileStream.read_append [] (leBytes 4 magic) (leBytes 4 formatVersion ++ (leBytes 8
    segmentId ++ (leBytes 8 startLsn ++ data))) 0
  have second := FileStream.read_append (leBytes 4 magic) (leBytes 4 formatVersion) (leBytes 8
    segmentId ++ (leBytes 8 startLsn ++ data)) 4
  have third := FileStream.read_append (leBytes 4 magic ++ leBytes 4 formatVersion)
    (leBytes 8 segmentId) (leBytes 8 startLsn ++ data) 4
  have fourth := FileStream.read_append (leBytes 4 magic ++ (leBytes 4 formatVersion ++ leBytes 8
    segmentId)) (leBytes 8 startLsn) data 8
  simp only [List.nil_append, List.length_nil, List.length_append, length_leBytes,
    List.append_assoc, Nat.zero_add, Nat.reduceAdd] at first second third fourth
  rw [bytes, readHeader, first]
  dsimp only
  rw [second]
  rw [third]
  rw [fourth]
  refine ⟨?_, rfl⟩
  rw [leNat_leBytes, leNat_leBytes, leNat_leBytes, leNat_leBytes, @Nat.mod_eq_of_lt segmentId
    (256 ^ 8) smallId, @Nat.mod_eq_of_lt startLsn (256 ^ 8) smallLsn]
  rfl

theorem openRead_fails (segment : WALSegment) (directory : WALDirectory) :
    (segment.openRead directory).1 = false := by
  unfold openRead
  cases directory.lookup segment.segmentId with
  | none => rfl
  | some content =>
    have last : (readHeader ⟨content, 0, true, 0⟩).2.gcount ≤ 8 := FileStream.gcount_read_le _ 8
    dsimp only
    rw [if_pos]
    rw [headerSize]
    omega

/-- A written segment can be opened for reading and shows what was written. -/
structure Reopens (directory : WALDirectory) (segmentId startLsn : Nat)
    (chunks : List (List UInt8)) : Prop where
  opens : (openRead { segmentId := segmentId }
    (writeFile directory segmentId startLsn chunks)).1 = true
  startLsn_eq : (openRead { segmentId := segmentId }
    (writeFile directory segmentId startLsn chunks)).2.startLsn = startLsn
  size_eq : (openRead { segmentId := segmentId }
    (writeFile directory segmentId startLsn chunks)).2.size = headerSize + chunks.flatten.length
  bytes_eq : (openRead { segmentId := segmentId }
      (writeFile directory segmentId startLsn chunks)).2.read
        (writeFile directory segmentId startLsn chunks) headerSize
        chunks.flatten.length = some chunks.flatten

/-- No segment that the log writer produces can be opened for reading. -/
theorem reopens_iff_false (directory : WALDirectory)
    (segmentId startLsn : Nat) (chunks : List (List UInt8)) :
    Reopens directory segmentId startLsn chunks ↔ False := by
  constructor
  · intro reopens
    have opened := reopens.opens
    rw [openRead_fails] at opened
    contradiction
  · exact False.elim

/-- The file of segment 1 with three bytes: header and bytes are as written,
and `open_read` rejects it. -/
theorem written_segment_rejected :
    (writeFile ∅ 1 1 [[5], [6, 7]]).lookup 1 = some (headerBytes 1 1 ++ [5, 6, 7]) ∧
      (readHeader ⟨headerBytes 1 1 ++ [5, 6, 7], 0, true, 0⟩).1 = ⟨magic, formatVersion, 1, 1⟩ ∧
      (openRead { segmentId := 1 } (writeFile ∅ 1 1 [[5], [6, 7]])).1 = false := by
  refine ⟨lookup_writeFile (AList.lookup_empty 1) 1 [[5], [6, 7]], ?_, ?_⟩
  · exact (readHeader_written (by decide) (by decide) _).1
  · exact openRead_fails _ _

end WALSegment

end KlyroDB
