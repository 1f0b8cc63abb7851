import KlyroDB.ByteMemory
import KlyroDB.CoreTypes

/-!
# Pages and page headers

The 36-byte header of `storage/page_header.cpp`, the checksum of
`storage/checksum.cpp`, and how `DiskManager::write_page` stamps a page with it.
-/

namespace KlyroDB

open ByteMemory

structure PageHeader where
  pageId : Nat
  pageType : Nat
  flags : Nat
  headerVersion : Nat
  lsn : Nat
  generation : Nat
  payloadSize : Nat
  checksum : Nat
  deriving DecidableEq, Repr

namespace PageHeader

def size : Nat := 36

def serialize (header : PageHeader) (buffer : List UInt8) : List UInt8 :=
  let buffer := writeNat buffer 0 8 header.pageId
  let buffer := writeNat buffer 8 1 header.pageType
  let buffer := writeNat buffer 9 1 header.flags
  let buffer := writeNat buffer 10 2 header.headerVersion
  let buffer := writeNat buffer 12 8 header.lsn
  let buffer := writeNat buffer 20 8 header.generation
  let buffer := writeNat buffer 28 4 header.payloadSize
  writeNat buffer 32 4 header.checksum

def deserialize (buffer : List UInt8) : PageHeader where
  pageId := readNat buffer 0 8
  pageType := readNat buffer 8 1
  flags := readNat buffer 9 1
  headerVersion := readNat buffer 10 2
  lsn := readNat buffer 12 8
  generation := readNat buffer 20 8
  payloadSize := readNat buffer 28 4
  checksum := readNat buffer 32 4

theorem serialize_deserialize_lsn {buffer : List UInt8}
    (inside : size ≤ buffer.length) (lsn : Nat) :
    ({ deserialize buffer with lsn := lsn } : PageHeader).serialize buffer =
      writeNat buffer 12 8 lsn := by
  have bound : 36 ≤ buffer.length := inside
  simp only [serialize, deserialize]
  iterate 4 rw [writeNat_eq_self (by omega) rfl]
  rw [@writeNat_eq_self (writeNat buffer 12 8 lsn) 20 8]
  rw [@writeNat_eq_self (writeNat buffer 12 8 lsn) 28 4]
  rw [@writeNat_eq_self (writeNat buffer 12 8 lsn) 32 4]
  all_goals first
    | exact readNat_writeNat_of_disjoint lsn (by omega)
    | (rw [length_writeNat]; omega)

theorem serialize_deserialize_checksum {buffer : List UInt8}
    (inside : size ≤ buffer.length) (checksum : Nat) :
    ({ deserialize buffer with checksum := checksum } : PageHeader).serialize buffer =
      writeNat buffer 32 4 checksum := by
  have bound : 36 ≤ buffer.length := inside
  simp only [serialize, deserialize]
  iterate 7 rw [writeNat_eq_self (by omega) rfl]

/-- The fields have the widths of their types in `storage/page_header.hpp`. -/
structure Representable (header : PageHeader) : Prop where
  pageId_lt : header.pageId < 256 ^ 8
  pageType_lt : header.pageType < 256 ^ 1
  flags_lt : header.flags < 256 ^ 1
  headerVersion_lt : header.headerVersion < 256 ^ 2
  lsn_lt : header.lsn < 256 ^ 8
  generation_lt : header.generation < 256 ^ 8
  payloadSize_lt : header.payloadSize < 256 ^ 4
  checksum_lt : header.checksum < 256 ^ 4

def toBytes (header : PageHeader) : List UInt8 :=
  leBytes 8 header.pageId ++ leBytes 1 header.pageType ++ leBytes 1 header.flags ++
    leBytes 2 header.headerVersion ++ leBytes 8 header.lsn ++ leBytes 8 header.generation ++
    leBytes 4 header.payloadSize ++ leBytes 4 header.checksum

section RoundTrip

variable {header : PageHeader} {buffer : List UInt8} (inside : size ≤ buffer.length)

include inside

theorem serialize_eq : header.serialize buffer = header.toBytes ++ buffer.drop size := by
  have bound : 36 ≤ buffer.length := inside
  have first := @poke_behind [] buffer (leBytes 8 header.pageId) 0 rfl (by simp; omega)
  simp only [List.nil_append] at first
  simp only [serialize, writeNat]
  rw [first]
  iterate 7 rw [poke_behind (by simp) (by simp; omega)]
  simp only [toBytes, length_leBytes, List.drop_drop, size]

theorem Representable.deserialize_serialize (typed : header.Representable) :
    deserialize (header.serialize buffer) = header := by
  obtain ⟨pageId, pageType, flags, headerVersion, lsn, generation, payloadSize, checksum⟩ := header
  obtain ⟨pageId_lt, pageType_lt, flags_lt, headerVersion_lt, lsn_lt, generation_lt,
    payloadSize_lt, checksum_lt⟩ := typed
  simp only [serialize_eq inside, toBytes, deserialize, List.append_assoc, readNat_append_of_le,
    length_leBytes, Nat.reduceLeDiff, Nat.reduceSub, readNat_leBytes, Nat.mod_eq_of_lt,
    pageId_lt, pageType_lt, flags_lt, headerVersion_lt, lsn_lt, generation_lt, payloadSize_lt,
    checksum_lt, le_refl]

theorem serialize_deserialize : (deserialize buffer).serialize buffer = buffer := by
  have bound : 36 ≤ buffer.length := inside
  simp only [serialize, deserialize]
  iterate 8 rw [writeNat_eq_self (by omega) rfl]

end RoundTrip

end PageHeader

namespace Checksum

def crc32cPolynomial : UInt32 := 0x82f63b78

def tableShift (value : UInt32) : UInt32 :=
  if value &&& 1 = 1 then crc32cPolynomial ^^^ (value >>> 1)
  else value >>> 1

def tableEntry (index : UInt8) : UInt32 :=
  tableShift^[8] index.toUInt32

def calculateChecksum (data : List UInt8) : UInt32 :=
  let crc := data.foldl
    (fun (crc : UInt32) byte =>
      tableEntry (crc ^^^ byte.toUInt32).toUInt8 ^^^ (crc >>> 8))
    0xFFFFFFFF
  crc ^^^ 0xFFFFFFFF

end Checksum

/-- The bytes of a page, which always have room for the header. -/
structure PageImage where
  data : List UInt8
  size_le : PageHeader.size ≤ data.length

namespace PageImage

@[ext] theorem ext {first second : PageImage}
    (same : first.data = second.data) : first = second := by
  cases first
  cases second
  cases same
  rfl

def readHeader (page : PageImage) : PageHeader :=
  PageHeader.deserialize page.data

def poke (page : PageImage) (offset : Nat) (bytes : List UInt8) : PageImage where
  data := ByteMemory.poke page.data offset bytes
  size_le := by
    rw [length_poke]
    exact page.size_le

theorem length_serialize (header : PageHeader) (buffer : List UInt8) :
    (header.serialize buffer).length = buffer.length := by simp [PageHeader.serialize]

def writeHeader (page : PageImage) (header : PageHeader) : PageImage where
  data := header.serialize page.data
  size_le := by
    rw [length_serialize]
    exact page.size_le

def lsn (page : PageImage) : Nat := page.readHeader.lsn

def setLsn (page : PageImage) (lsn : Nat) : PageImage :=
  page.writeHeader { page.readHeader with lsn := lsn }

/-- The part of `DiskManager::write_page` before the file write. -/
def stampChecksum (page : PageImage) : PageImage :=
  let cleared := page.writeHeader { page.readHeader with checksum := 0 }
  cleared.writeHeader { page.readHeader with
    checksum := (Checksum.calculateChecksum cleared.data).toNat }

theorem data_setLsn (page : PageImage) (lsn : Nat) :
    (page.setLsn lsn).data = writeNat page.data 12 8 lsn :=
  PageHeader.serialize_deserialize_lsn page.size_le lsn

theorem lsn_setLsn (page : PageImage) {lsn : Nat} (small : lsn < 2 ^ 64) :
    (page.setLsn lsn).lsn = lsn := by
  have bound : 36 ≤ page.data.length := page.size_le
  have stored : (page.setLsn lsn).lsn = readNat (writeNat page.data 12 8 lsn) 12 8 := by
    rw [← data_setLsn]
    rfl
  rw [stored, readNat_writeNat lsn (by omega)]
  omega

/-- The pages agree outside the checksum field. -/
def SameUpToChecksum (first second : PageImage) : Prop :=
  first.data.length = second.data.length ∧ ∀ index, index < 32 ∨ 36 ≤ index → first.data[index]? =
    second.data[index]?

namespace SameUpToChecksum

theorem refl (page : PageImage) : SameUpToChecksum page page :=
  ⟨rfl, fun _ _ => rfl⟩

variable {first second : PageImage}

theorem symm (same : SameUpToChecksum first second) : SameUpToChecksum second first :=
  ⟨same.1.symm, fun index outside => (same.2 index outside).symm⟩

theorem trans {first second third : PageImage} (left : SameUpToChecksum first second)
    (right : SameUpToChecksum second third) : SameUpToChecksum first third :=
  ⟨left.1.trans right.1, fun index outside =>
    (left.2 index outside).trans (right.2 index outside)⟩

section

variable (same : SameUpToChecksum first second)

include same

theorem slice_eq {offset length : Nat} (outside : offset + length ≤ 32 ∨ 36 ≤ offset) :
    slice first.data offset length = slice second.data offset length := by
  apply List.ext_getElem?
  intro index
  rw [getElem?_slice, getElem?_slice]
  split_ifs with bound
  · exact same.2 _ (by omega)
  · rfl

theorem lsn_eq : first.lsn = second.lsn :=
  congrArg leNat (same.slice_eq (Or.inl (by omega)))

theorem poke (offset : Nat) (bytes : List UInt8) :
    SameUpToChecksum (first.poke offset bytes) (second.poke offset bytes) := by
  constructor
  · simp only [PageImage.poke, length_poke, same.1]
  · intro index outside
    simp only [PageImage.poke, getElem?_poke, same.2 index outside]

theorem setLsn (lsn : Nat) : SameUpToChecksum (first.setLsn lsn) (second.setLsn lsn) := by
  have poked := same.poke 12 (leBytes 8 lsn)
  constructor
  · rw [data_setLsn, data_setLsn]
    exact poked.1
  · rw [data_setLsn, data_setLsn]
    exact poked.2

end

end SameUpToChecksum

theorem data_setChecksum (page : PageImage) (checksum : Nat) :
    (page.writeHeader { page.readHeader with checksum := checksum }).data =
      writeNat page.data 32 4 checksum :=
  PageHeader.serialize_deserialize_checksum page.size_le checksum

theorem sameUpToChecksum_setChecksum (page : PageImage) (checksum : Nat) :
    SameUpToChecksum (page.writeHeader { page.readHeader with checksum := checksum })
      page := by
  constructor
  · rw [data_setChecksum, length_writeNat]
  intro index outside
  rw [data_setChecksum]
  apply getElem?_poke_outside
  rw [length_leBytes]
  omega

theorem SameUpToChecksum.header_eq {first second : PageImage}
    (same : SameUpToChecksum first second) (checksum : Nat) :
    ({ first.readHeader with checksum := checksum } : PageHeader) =
      { second.readHeader with checksum := checksum } := by
  have field (offset width : Nat) (before : offset + width ≤ 32) : readNat first.data offset width =
      readNat second.data offset width := congrArg leNat (same.slice_eq (Or.inl before))
  unfold readHeader PageHeader.deserialize
  rw [field 0 8 (by omega), field 8 1 (by omega), field 9 1 (by omega), field 10 2 (by omega), field
    12 8 (by omega), field 20 8 (by omega), field 28 4 (by omega)]

theorem sameUpToChecksum_stampChecksum (page : PageImage) :
    SameUpToChecksum page.stampChecksum page := by
  have cleared := sameUpToChecksum_setChecksum page 0
  unfold stampChecksum
  dsimp only
  generalize page.writeHeader { page.readHeader with checksum := 0 } = middle at cleared ⊢
  rw [cleared.symm.header_eq]
  exact (sameUpToChecksum_setChecksum _ _).trans cleared

/-- What `DiskManager::write_page` makes of a page, in memory and on disk.
Page 0 carries the database header and is not stamped. -/
def storedPage (page : PageImage) (pageId : Nat) : PageImage :=
  if pageId = 0 then page else page.stampChecksum

theorem SameUpToChecksum.storedPage (pageId : Nat) {page other : PageImage}
    (same : SameUpToChecksum page other) : SameUpToChecksum (page.storedPage pageId) other := by
  unfold PageImage.storedPage
  split_ifs with metadata
  · exact same
  · exact (sameUpToChecksum_stampChecksum page).trans same

end PageImage

end KlyroDB
