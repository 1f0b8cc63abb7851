import KlyroDB.LockResources
import Mathlib.Data.List.Sort

/-!
# Transactions, snapshots and row visibility

`transaction/`: the registry of transaction states, the manager, its snapshots,
and the visibility of row versions.  The write-ahead log is seen through its
replies: an absent log manager, a sequence number, or an exception.
-/

namespace KlyroDB

inductive TransactionState
  | active
  | committing
  | committed
  | aborting
  | aborted
  deriving DecidableEq, Repr, Inhabited

inductive IsolationLevel
  | readCommitted
  | repeatableRead
  | serializable
  deriving DecidableEq, Repr, Inhabited

inductive UndoOperation
  | insert
  | update
  | delete
  deriving DecidableEq, Repr, Inhabited

structure UndoRecord where
  op : UndoOperation
  tableId : Nat
  recordId : RecordID
  deriving DecidableEq, Repr

structure Transaction where
  id : Nat
  state : TransactionState := .active
  lastLsn : Nat := 0
  isoLevel : IsolationLevel := .readCommitted
  undoRecords : List UndoRecord := []
  locks : List LockResource := []
  deriving DecidableEq, Repr

structure MVCCHeader where
  xmin : Nat := invalidTransactionID
  xmax : Nat := invalidTransactionID
  prevVersion : RecordID := {}
  deriving DecidableEq, Repr

abbrev TransactionRegistry := AList fun _ : Nat => TransactionState

namespace TransactionRegistry

def registerTransaction (registry : TransactionRegistry) (id : Nat)
    (state : TransactionState := .active) : TransactionRegistry :=
  registry.insert id state

def updateState (registry : TransactionRegistry) (id : Nat)
    (state : TransactionState) : TransactionRegistry :=
  if id ∈ registry then registry.insert id state else registry

def getState (registry : TransactionRegistry) (id : Nat) : Option TransactionState :=
  registry.lookup id

def isCommitted (registry : TransactionRegistry) (id : Nat) : Bool :=
  registry.getState id == some .committed

def isUnfinished : TransactionState → Bool
  | .active | .committing | .aborting => true
  | .committed | .aborted => false

def getActiveTransactions (registry : TransactionRegistry) : List Nat :=
  (registry.entries.filter fun entry => isUnfinished entry.2).map Sigma.fst

def getOldestActiveTransaction (registry : TransactionRegistry) : Nat :=
  registry.getActiveTransactions.min?.getD invalidTransactionID

end TransactionRegistry

structure Snapshot where
  xmin : Nat := invalidTransactionID
  xmax : Nat := invalidTransactionID
  activeTxns : List Nat := []
  deriving DecidableEq, Repr

namespace Snapshot

def make (xmin xmax : Nat) (activeTxns : List Nat) : Snapshot where
  xmin := xmin
  xmax := xmax
  activeTxns := activeTxns.mergeSort

/-- `std::lower_bound`: the suffix from the first element not below `value`. -/
def lowerBound (values : List Nat) (value : Nat) : List Nat :=
  values.dropWhile fun element => element < value

def isActive (snapshot : Snapshot) (id : Nat) : Bool :=
  if id < snapshot.xmin then false
  else if snapshot.xmax ≤ id then true
  else (lowerBound snapshot.activeTxns id).head? == some id

end Snapshot

/-- `VisibilityManager::is_visible` over the manager's registry. -/
def isVisible (registry : TransactionRegistry) (header : MVCCHeader)
    (snapshot : Snapshot) (currentTxn : Nat) : Bool :=
  let createdVisible :=
    if header.xmin = currentTxn then true
    else if snapshot.isActive header.xmin then false
    else registry.isCommitted header.xmin
  if !createdVisible then false
  else if header.xmax = invalidTransactionID then true
  else
    let deleterVisible :=
      if header.xmax = currentTxn then true
      else if snapshot.isActive header.xmax then false
      else registry.isCommitted header.xmax
    !deleterVisible

/-- `nextTxnId` stands for a 64-bit counter and does not wrap around here. -/
structure TransactionManager where
  nextTxnId : Nat := initialTransactionID
  registry : TransactionRegistry := ∅
  transactions : AList fun _ : Nat => Transaction := ∅

/-- What the log manager answers to the appends and flushes of one call. -/
inductive WalReply
  | absent
  | appended (lsn : Nat)
  | throws
  deriving DecidableEq, Repr

/-- How a call on the manager ends: by returning, or by an exception of the
log manager that passes through it. -/
inductive CallResult (α : Type)
  | returned (value : α)
  | thrown
  deriving DecidableEq, Repr

namespace TransactionManager

/-- `TransactionManager::begin`.  The transaction is registered before its
`TxnBegin` record is appended. -/
def begin (manager : TransactionManager) (isoLevel : IsolationLevel)
    (wal : WalReply) : TransactionManager × CallResult Nat :=
  let id := manager.nextTxnId
  let transaction : Transaction := { id := id, isoLevel := isoLevel }
  let store := fun (stored : Transaction) =>
    { nextTxnId := id + 1
      registry := manager.registry.registerTransaction id
      transactions := manager.transactions.insert id stored : TransactionManager }
  match wal with
  | .absent => (store transaction, .returned id)
  | .appended lsn => (store { transaction with lastLsn := lsn }, .returned id)
  | .throws => (store transaction, .thrown)

/-- Finish a transaction in the registry and in its object, and clear its
undo records and locks. -/
def finish (manager : TransactionManager) (transaction : Transaction)
    (state : TransactionState) : TransactionManager :=
  { manager with
    registry := manager.registry.updateState transaction.id state
    transactions := manager.transactions.insert transaction.id
      { transaction with state := state, undoRecords := [], locks := [] } }

/-- The `Transaction*` argument of a call: a null pointer, or a pointer to an
object that the manager owns. -/
def target (manager : TransactionManager) (pointer : Option Nat) : Option Transaction :=
  pointer.bind manager.transactions.lookup

/-- `TransactionManager::commit`.  A throwing append or flush leaves the
transaction active. -/
def commit (manager : TransactionManager) (pointer : Option Nat)
    (wal : WalReply) : TransactionManager × CallResult Status :=
  match manager.target pointer with
  | none => (manager, .returned .invalidState)
  | some transaction =>
      if transaction.state ≠ .active then (manager, .returned .invalidState)
      else
        match wal with
        | .throws => (manager, .thrown)
        | .absent | .appended _ => (manager.finish transaction .committed, .returned .ok)

/-- `TransactionManager::abort`.  `abortWal` answers the append of the
`TxnAbort` record, `endWal` the append and flush of the `TxnEnd` record. -/
def abort (manager : TransactionManager) (pointer : Option Nat)
    (abortWal endWal : WalReply) : TransactionManager × CallResult Status :=
  match manager.target pointer with
  | none => (manager, .returned .invalidState)
  | some transaction =>
      if transaction.state ≠ .active then (manager, .returned .invalidState)
      else
        match abortWal, endWal with
        | .throws, _ => (manager, .thrown)
        | .absent, _ =>
            (manager.finish transaction .aborted, .returned .ok)
        | .appended lsn, .throws =>
            ({ manager with
                transactions := manager.transactions.insert transaction.id
                  { transaction with lastLsn := lsn } }, .thrown)
        | .appended lsn, .absent | .appended lsn, .appended _ =>
            (manager.finish { transaction with lastLsn := lsn } .aborted, .returned .ok)

/-- `TransactionManager::create_snapshot`; the transaction is not consulted. -/
def createSnapshot (manager : TransactionManager) : Snapshot :=
  let xmax := manager.nextTxnId
  let oldest := manager.registry.getOldestActiveTransaction
  let xmin := if oldest = invalidTransactionID ∨ xmax < oldest then xmax
    else oldest
  Snapshot.make xmin xmax manager.registry.getActiveTransactions

end TransactionManager

end KlyroDB
