import KlyroDB.LogRecord
import KlyroDB.PageLayout
import KlyroDB.TransactionManager

/-!
# Recovery

The three phases of `wal/recovery_manager.cpp` over the records the log reader
delivers and the pages the buffer pool can fetch.
-/

namespace KlyroDB

open ByteMemory

structure TransactionTableEntry where
  txnId : Nat
  state : TransactionState
  lastLsn : Nat
  undoNextLsn : Nat
  deriving DecidableEq, Repr

abbrev RecoveryTransactionTable := AList fun _ : Nat => TransactionTableEntry

namespace RecoveryTransactionTable

/-- `update`; `undo_next_lsn` is set only while it is invalid. -/
def update (table : RecoveryTransactionTable) (txnId : Nat)
    (state : TransactionState) (lastLsn : Nat) : RecoveryTransactionTable :=
  let undoNextLsn := ((table.lookup txnId).map TransactionTableEntry.undoNextLsn).getD LSN.invalid
  table.insert txnId
    { txnId := txnId
      state := state
      lastLsn := lastLsn
      undoNextLsn := if LSN.isValid undoNextLsn then undoNextLsn
        else lastLsn }

def getLosers (table : RecoveryTransactionTable) : List TransactionTableEntry :=
  (table.entries.map Sigma.snd).filter fun entry => entry.state != .committed

end RecoveryTransactionTable

/-- The recovery LSN of each dirty page. -/
abbrev DirtyPageTable := AList fun _ : Nat => Nat

namespace DirtyPageTable

def update (table : DirtyPageTable) (pageId recLsn : Nat) : DirtyPageTable :=
  if pageId ∈ table then table else table.insert pageId recLsn

def getRedoStartLsn (table : DirtyPageTable) : Nat :=
  table.entries.foldl (fun least entry => min entry.2 least) (2 ^ 64 - 1)

def getRecLsn (table : DirtyPageTable) (pageId : Nat) : Nat :=
  (table.lookup pageId).getD LSN.invalid

end DirtyPageTable

/-- The pages that `fetch_page` delivers. -/
abbrev PageStore := Nat → Option PageImage

namespace LogRecord

def isPhysical (record : LogRecord) : Bool :=
  match record.type with
  | .insert | .update | .delete | .clr => true
  | _ => false

def pageId (record : LogRecord) : Nat := readNat record.payload 0 4

def offset (record : LogRecord) : Nat := readNat record.payload 4 2

def length (record : LogRecord) : Nat := readNat record.payload 6 2

def firstImage (record : LogRecord) : List UInt8 :=
  slice record.payload 8 record.length

end LogRecord

/-- What `seek_to_lsn` leaves to read: the log from the first record whose LSN
reaches the given one. -/
def seekToLsn (log : List LogRecord) (lsn : Nat) : Option (List LogRecord) :=
  match log.dropWhile fun record => record.lsn < lsn with
  | [] => none
  | rest => some rest

namespace RecoveryManager

structure Tables where
  txnTable : RecoveryTransactionTable := ∅
  dirtyPageTable : DirtyPageTable := ∅

def analyze (tables : Tables) (record : LogRecord) : Tables :=
  match record.type with
  | .txnBegin =>
      { tables with txnTable :=
          tables.txnTable.update record.txnId .active record.lsn }
  | .txnCommit =>
      { tables with txnTable :=
          tables.txnTable.update record.txnId .committed record.lsn }
  | .txnAbort =>
      { tables with txnTable :=
          tables.txnTable.update record.txnId .aborted record.lsn }
  | .txnEnd =>
      { tables with txnTable := tables.txnTable.erase record.txnId }
  | .insert | .update | .delete | .clr =>
      { txnTable := tables.txnTable.update record.txnId .active record.lsn
        dirtyPageTable :=
          if 4 ≤ record.getPayloadSize then
            tables.dirtyPageTable.update record.pageId record.lsn
          else tables.dirtyPageTable }
  | _ => tables

/-- The tables and the redo start LSN that `phase_analysis` leaves;
`checkpointLsn` is what the master record holds. -/
def phaseAnalysis (log : List LogRecord) (checkpointLsn : Option Nat) : Tables × Nat :=
  let scanned := match checkpointLsn with
    | none => log
    | some lsn => (seekToLsn log lsn).getD log
  let tables := scanned.foldl analyze {}
  let start := tables.dirtyPageTable.getRedoStartLsn
  (tables, if LSN.isValid start then start else checkpointLsn.getD start)

/-- The update payload is long enough to be applied by `redo_record`. -/
def redoable (record : LogRecord) : Bool :=
  record.type == .update && 8 ≤ record.getPayloadSize && 8 + record.length ≤ record.getPayloadSize

/-- `redo_record` once the page has been fetched. -/
def redoPage (page : PageImage) (record : LogRecord) : PageImage :=
  if record.lsn ≤ page.lsn then page
  else if redoable record then
    (page.poke record.offset record.firstImage).setLsn record.lsn
  else page

def redoRecord (dirtyPages : DirtyPageTable) (pages : PageStore) (record : LogRecord) : PageStore :=
  if record.getPayloadSize < 4 then pages
  else if record.pageId ∉ dirtyPages then pages
  else if record.lsn < dirtyPages.getRecLsn record.pageId then pages
  else
    match pages record.pageId with
    | none => pages
    | some page => Function.update pages record.pageId (some (redoPage page record))

def redoStep (dirtyPages : DirtyPageTable) (pages : PageStore) (record : LogRecord) : PageStore :=
  if record.isPhysical then redoRecord dirtyPages pages record else pages

def redoRecords (redoStartLsn : Nat) (log : List LogRecord) : List LogRecord :=
  if LSN.isValid redoStartLsn then (seekToLsn log redoStartLsn).getD log
  else []

def phaseRedo (dirtyPages : DirtyPageTable) (redoStartLsn : Nat)
    (log : List LogRecord) (pages : PageStore) : PageStore :=
  (redoRecords redoStartLsn log).foldl (redoStep dirtyPages) pages

/-- The pages, the next LSN of the log manager and the records that undo
appended to the log. -/
structure UndoState where
  pages : PageStore
  nextLsn : Nat
  appended : List LogRecord := []

def append (state : UndoState) (record : LogRecord) : UndoState :=
  { state with
    nextLsn := state.nextLsn + 1
    appended := state.appended ++ [{ record with lsn := state.nextLsn }] }

def undoRecord (state : UndoState) (record : LogRecord) : UndoState :=
  if record.getPayloadSize < 4 then state
  else
    match state.pages record.pageId with
    | none => state
    | some page =>
        if record.type ≠ .update then state
        else if record.getPayloadSize < 8 + record.length * 2 then state
        else
          let restored := page.poke record.offset record.firstImage
          let logged := append state
            { txnId := record.txnId
              type := .clr
              undoNextLsn := record.prevLsn
              payload := slice record.payload 0 (8 + record.length) }
          { logged with
            pages := Function.update state.pages record.pageId
              (some (restored.setLsn state.nextLsn)) }

/-- The record at exactly this LSN, if `seek_to_lsn` leads to it. -/
def recordAt (log : List LogRecord) (target : Nat) : Option LogRecord :=
  match seekToLsn log target with
  | some (record :: _) => if record.lsn = target then some record else none
  | _ => none

/-- One turn of the loop of `phase_undo`, after the largest target has been
taken from the queue. -/
def undoTarget (log : List LogRecord) (target : Nat) (queue : List Nat)
    (state : UndoState) : List Nat × UndoState :=
  match recordAt log target with
  | none => (queue, state)
  | some record =>
      if record.type = .update then
        (if LSN.isValid record.prevLsn then record.prevLsn :: queue else queue,
          undoRecord state record)
      else (queue, state)

/-- The loop of `phase_undo`, with the LSNs that it takes from the queue;
`none` when it has not ended after the given number of turns. -/
def undoLoop (log : List LogRecord) : Nat → List Nat → UndoState → Option (List Nat × UndoState)
  | fuel, queue, state =>
      match queue.max?, fuel with
      | none, _ => some ([], state)
      | some _, 0 => none
      | some target, fuel + 1 =>
          let next := undoTarget log target (queue.erase target) state
          (undoLoop log fuel next.1 next.2).map fun run => (target :: run.1, run.2)

/-- The first LSNs to undo. -/
def undoQueue (table : RecoveryTransactionTable) : List Nat :=
  (table.getLosers.map TransactionTableEntry.undoNextLsn).filter LSN.isValid

def appendEnds (losers : List TransactionTableEntry) (state : UndoState) : UndoState :=
  losers.foldl (fun logged loser =>
    append logged { txnId := loser.txnId, type := .txnEnd }) state

def phaseUndo (fuel : Nat) (log : List LogRecord) (table : RecoveryTransactionTable)
    (state : UndoState) : Option UndoState :=
  (undoLoop log fuel (undoQueue table) state).map fun run => appendEnds table.getLosers run.2

end RecoveryManager

end KlyroDB
