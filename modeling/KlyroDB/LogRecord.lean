import KlyroDB.ByteMemory
import KlyroDB.CoreTypes

/-!
# Log records

`wal/log_record.cpp`: a 41-byte little-endian header with a checksum over all
other bytes, followed by the payload.
-/

namespace KlyroDB

open ByteMemory

/-- `LogRecordType`, an enumeration over one byte; a record that was read from
a file may carry any byte. -/
inductive LogRecordType
  | invalid
  | txnBegin
  | txnCommit
  | txnAbort
  | txnEnd
  | insert
  | update
  | delete
  | checkpointBegin
  | checkpointEnd
  | clr
  | pageAllocate
  | pageFree
  | other (value : UInt8)
  deriving DecidableEq, Repr

namespace LogRecordType

def code : LogRecordType → UInt8
  | .invalid => 0
  | .txnBegin => 1
  | .txnCommit => 2
  | .txnAbort => 3
  | .txnEnd => 4
  | .insert => 10
  | .update => 11
  | .delete => 12
  | .checkpointBegin => 20
  | .checkpointEnd => 21
  | .clr => 30
  | .pageAllocate => 40
  | .pageFree => 41
  | .other value => value

end LogRecordType

structure LogRecord where
  lsn : Nat := LSN.invalid
  txnId : Nat := 0
  prevLsn : Nat := LSN.invalid
  undoNextLsn : Nat := LSN.invalid
  type : LogRecordType := .invalid
  payload : List UInt8 := []
  deriving DecidableEq, Repr

namespace LogRecord

def headerSize : Nat := 41

def getPayloadSize (record : LogRecord) : Nat :=
  record.payload.length % 2 ^ 32

def getSize (record : LogRecord) : Nat :=
  (headerSize + record.getPayloadSize) % 2 ^ 32

def crcShift (crc : UInt32) : UInt32 :=
  (crc >>> 1) ^^^ (0xEDB88320 &&& (0 - (crc &&& 1)))

def crc32 (bytes : List UInt8) : UInt32 :=
  ~~~ bytes.foldl (fun crc byte => crcShift^[8] (crc ^^^ byte.toUInt32)) 0xFFFFFFFF

def fieldBytes (record : LogRecord) : List UInt8 :=
  leBytes 8 record.lsn ++ leBytes 8 record.txnId ++ leBytes 8 record.prevLsn ++ leBytes 8
    record.undoNextLsn ++ [record.type.code] ++ leBytes 4 record.getPayloadSize

def calculateChecksum (record : LogRecord) : UInt32 :=
  crc32 (record.fieldBytes ++ record.payload.take record.getPayloadSize)

def serialize (record : LogRecord) : List UInt8 :=
  record.fieldBytes ++ leBytes 4 record.calculateChecksum.toNat ++
    record.payload.take record.getPayloadSize

theorem length_serialize (record : LogRecord) :
    record.serialize.length = headerSize + record.getPayloadSize := by
  have payload : record.getPayloadSize ≤ record.payload.length := Nat.mod_le _ _
  simp [serialize, fieldBytes, headerSize, payload]
  omega

end LogRecord

end KlyroDB
