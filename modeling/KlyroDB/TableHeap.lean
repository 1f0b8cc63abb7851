import KlyroDB.BoundedLoop
import KlyroDB.LogRecord
import KlyroDB.RecordFormat
import KlyroDB.TablePageRefinement

/-!
# Table heaps

`storage/table_heap.cpp` over the pages that the buffer pool hands out.  `update`
leaves the old version of a record in place and inserts its successor.
-/

namespace KlyroDB

open RecordHeader (byteSize readMvcc writeXmax)
open ByteMemory
open BoundedLoop (Round)

namespace TablePage

def setLsn (page : TablePage) (lsn : Nat) : TablePage :=
  { page with
    data := PageHeader.serialize { PageHeader.deserialize page.data with lsn := lsn } page.data }

end TablePage

/-- The pages that `allocate_page` is going to return, in this order, and the
status it returns when no page is left.  The bytes of a page may be those of a
freed one. -/
structure PageSupply where
  first : TablePage
  rest : List TablePage
  exhausted : Status
  distinct : ((first :: rest).map TablePage.pageId).Nodup
  valid : ∀ page ∈ first :: rest, page.pageId < PageID.invalid
  large : ∀ page ∈ first :: rest, 72 ≤ page.limit

def PageSupply.page (supply : PageSupply) (index : Nat) : Option TablePage :=
  (supply.first :: supply.rest)[index]?

/-- The pages that a heap reaches through the buffer pool, with the number of
pages that were allocated. -/
structure TableHeap where
  firstPageId : Nat
  pages : Nat → Option (List UInt8)
  allocated : Nat

/-- A call ends with a status or with an exception of the serializer. -/
inductive HeapError
  | status (status : Status)
  | thrown (failure : RecordError)
  deriving DecidableEq, Repr

namespace TableHeap

def fetchPage (heap : TableHeap) (pageId : Nat) : Except Status TablePage :=
  match heap.pages pageId with
  | none => .error .ioError
  | some data => .ok ⟨pageId, data⟩

def putPage (heap : TableHeap) (page : TablePage) : TableHeap :=
  { heap with
    pages := Function.update heap.pages page.pageId (some page.data) }

def allocatePage (supply : PageSupply) (heap : TableHeap) : Except Status TablePage × TableHeap :=
  match supply.page heap.allocated with
  | none => (.error supply.exhausted, heap)
  | some page => (.ok page, { heap with allocated := heap.allocated + 1 })

/-- `TableHeap::create` on the first page of the supply. -/
def create (supply : PageSupply) : TableHeap :=
  let page := supply.first.init
  { firstPageId := page.pageId
    pages := Function.update (fun _ => none) page.pageId (some page.data)
    allocated := 1 }

inductive Search
  | inserted (id : RecordID)
  | full (last : Nat)
  | failed (status : Status)
  deriving DecidableEq, Repr

/-- Only `insert` compacts a page before it tries it. -/
def makeRoom (compaction : Option (DescendingSort TablePage.SlotRef.offset))
    (bytes : List UInt8) (page : TablePage) : TablePage :=
  match compaction with
  | some order =>
      if page.freeSpace < bytes.length + TablePage.sizeofSlot then
        page.compact order
      else page
  | none => page

structure Cursor where
  last : Nat
  current : Nat
  heap : TableHeap

def Cursor.advance (cursor : Cursor) :
    Except Status RecordID × TablePage → Round Cursor (Search × TableHeap)
  | (.ok id, page) => .done (.inserted id, cursor.heap.putPage page)
  | (.error _, page) => .again ⟨cursor.current, page.nextPageId, cursor.heap.putPage page⟩

/-- One round of the loop that `insert` and `update` share. -/
def tryPage (compaction : Option (DescendingSort TablePage.SlotRef.offset)) (bytes : List UInt8)
    (cursor : Cursor) : Round Cursor (Search × TableHeap) :=
  if PageID.isValid cursor.current then
    match cursor.heap.fetchPage cursor.current with
    | .error status => .done (.failed status, cursor.heap)
    | .ok page =>
        cursor.advance ((makeRoom compaction bytes page).insert bytes)
  else .done (.full cursor.last, cursor.heap)

def findRoom (compaction : Option (DescendingSort TablePage.SlotRef.offset))
    (bytes : List UInt8) (heap : TableHeap) : Search × TableHeap :=
  (BoundedLoop.run (tryPage compaction bytes) (heap.allocated + 1) ⟨PageID.invalid,
    heap.firstPageId, heap⟩).getD (.failed .internalError, heap)

/-- The heap with the transaction of a call and the records it has logged. -/
structure Call where
  heap : TableHeap
  transaction : Transaction
  log : List LogRecord := []

namespace Call

/-- Appends a record about a page to the log, if there is one, and stores its
number in the transaction and in the page. -/
def logPage (call : Call) (type : LogRecordType) (page : TablePage) (lsn : Option Nat) : Call :=
  match lsn with
  | none => call
  | some lsn =>
      { heap := call.heap.putPage (page.setLsn lsn)
        transaction := { call.transaction with lastLsn := lsn }
        log := call.log ++
          [{ lsn := lsn
             txnId := call.transaction.id
             prevLsn := call.transaction.lastLsn
             type := type
             payload := leBytes 4 page.pageId }] }

def addUndoRecord (call : Call) (op : UndoOperation) (id : RecordID) : Call :=
  { call with
    transaction :=
      { call.transaction with
        undoRecords := call.transaction.undoRecords ++ [⟨op, 0, id⟩] } }

end Call

def stampVersion (bytes : List UInt8) (creator : Nat) (prev : RecordID) : List UInt8 :=
  if byteSize ≤ bytes.length then
    RecordHeader.writePrevVersion
      (writeXmax (RecordHeader.writeXmin bytes creator) invalidTransactionID) prev
  else bytes

def linkPage (heap : TableHeap) (last pageId : Nat) : TableHeap :=
  if PageID.isValid last then
    match heap.fetchPage last with
    | .error _ => heap
    | .ok lastPage => heap.putPage (lastPage.setNextPageId pageId)
  else heap

/-- The end of `insert` after the insertion into a new page. -/
def Call.newPage (call : Call) (last : Nat) (lsn : Option Nat) :
    Except Status RecordID × TablePage → Except HeapError RecordID × Call
  | (.error status, page) =>
      (.error (.status status), { call with heap := call.heap.putPage page })
  | (.ok id, page) =>
      let call := { call with heap := call.heap.putPage page }
      let call := (call.logPage .insert page lsn).addUndoRecord .insert id
      (.ok id, { call with heap := call.heap.linkPage last page.pageId })

/-- The part of `insert` behind the search: a chain without room gets a new
page at its end. -/
def Call.extendChain (supply : PageSupply) (bytes : List UInt8) (transaction : Transaction)
    (lsn : Option Nat) : Search × TableHeap → Except HeapError RecordID × Call
  | (.inserted id, heap) => (.ok id, ⟨heap, transaction, []⟩)
  | (.failed status, heap) => (.error (.status status), ⟨heap, transaction, []⟩)
  | (.full last, heap) =>
      match allocatePage supply heap with
      | (.error status, heap) =>
          (.error (.status status), ⟨heap, transaction, []⟩)
      | (.ok page, heap) =>
          Call.newPage ⟨heap, transaction, []⟩ last lsn
            ((page.init.setPrevPageId last).insert bytes)

/-- The part of `insert` behind the serialization. -/
def insertBytes (supply : PageSupply) (heap : TableHeap) (transaction : Transaction)
    (order : DescendingSort TablePage.SlotRef.offset) (lsn : Option Nat) : Except RecordError
    (List UInt8) → Except HeapError RecordID × Call
  | .error failure => (.error (.thrown failure), ⟨heap, transaction, []⟩)
  | .ok bytes =>
      let bytes := stampVersion bytes transaction.id {}
      Call.extendChain supply bytes transaction lsn (findRoom (some order) bytes heap)

/-- `TableHeap::insert`.  Only an insertion that allocates a page is logged and
recorded for undo. -/
def insert (supply : PageSupply) (layout : TupleLayout) (heap : TableHeap)
    (transaction : Transaction) (record : Record) (order : DescendingSort TablePage.SlotRef.offset)
    (lsn : Option Nat) : Except HeapError RecordID × Call :=
  insertBytes supply heap transaction order lsn (RecordSerializer.serialize record layout)

def getBytes (heap : TableHeap) (id : RecordID) : Except Status (List UInt8) :=
  match heap.fetchPage id.pageId with
  | .error status => .error status
  | .ok page => page.get id

/-- A round of `get` after the version was read: a visible version is the
result, otherwise the walk goes on with the version it replaced. -/
def visitVersion (layout : TupleLayout) (registry : TransactionRegistry) (snapshot : Snapshot)
    (reader : Nat) : Except Status (List UInt8) → Round RecordID (Except HeapError Record)
  | .error status => .done (.error (.status status))
  | .ok bytes =>
      if byteSize ≤ bytes.length then
        let mvcc := readMvcc bytes
        if isVisible registry mvcc snapshot reader then
          .done ((RecordDeserializer.deserialize bytes layout).mapError HeapError.thrown)
        else .again mvcc.prevVersion
      else .done (.error (.status .internalError))

def visitRecord (layout : TupleLayout) (registry : TransactionRegistry) (snapshot : Snapshot)
    (reader : Nat) (heap : TableHeap) (id : RecordID) : Round RecordID (Except HeapError Record) :=
  if id.isValid then
    visitVersion layout registry snapshot reader (heap.getBytes id)
  else .done (.error (.status .notFound))

/-- `TableHeap::get`; no result if the given number of rounds is too small. -/
def get (layout : TupleLayout) (registry : TransactionRegistry) (snapshot : Snapshot) (reader : Nat)
    (heap : TableHeap) (rounds : Nat) (id : RecordID) : Option (Except HeapError Record) :=
  BoundedLoop.run (visitRecord layout registry snapshot reader heap) rounds id

/-- The end of `erase`, and of the first part of `update`, after the page was
updated. -/
def Call.marked (call : Call) (type : LogRecordType) (id : RecordID) (lsn : Option Nat) : Except
    Status Unit × TablePage → Except HeapError Unit × Call
  | (.error status, page) =>
      (.error (.status status), { call with heap := call.heap.putPage page })
  | (.ok _, page) =>
      let call := { call with heap := call.heap.putPage page }
      (.ok (), (call.logPage type page lsn).addUndoRecord .delete id)

/-- Marks a version that was read as deleted by the transaction, unless
another one has marked it. -/
def Call.markBytes (call : Call) (type : LogRecordType) (id : RecordID) (lsn : Option Nat)
    (page : TablePage) : Except Status (List UInt8) → Except HeapError Unit × Call
  | .error status => (.error (.status status), call)
  | .ok bytes =>
      if bytes.length < byteSize then
        (.error (.status .internalError), call)
      else
        let xmax := (readMvcc bytes).xmax
        if xmax ≠ invalidTransactionID ∧ xmax ≠ call.transaction.id then
          (.error (.status .transactionAborted), call)
        else
          call.marked type id lsn (page.update id (writeXmax bytes call.transaction.id))

/-- The first part of `update` and the whole of `erase`. -/
def markDeleted (type : LogRecordType) (heap : TableHeap) (transaction : Transaction)
    (id : RecordID) (lsn : Option Nat) : Except HeapError Unit × Call :=
  match heap.fetchPage id.pageId with
  | .error status => (.error (.status status), ⟨heap, transaction, []⟩)
  | .ok page => Call.markBytes ⟨heap, transaction, []⟩ type id lsn page (page.get id)

/-- The end of `update` after the search for room.  The chain is neither
compacted nor extended. -/
def Call.successor (call : Call) (lsn : Option Nat) :
    Search × TableHeap → Except HeapError Unit × Call
  | (.failed status, heap) =>
      (.error (.status status), { call with heap := heap })
  | (.full _, heap) =>
      (.error (.status .internalError), { call with heap := heap })
  | (.inserted id, heap) =>
      let call := { call with heap := heap }
      match heap.fetchPage id.pageId with
      | .error _ => (.ok (), call.addUndoRecord .insert id)
      | .ok page => (.ok (), (call.logPage .insert page lsn).addUndoRecord .insert id)

/-- The second part of `update`, behind the serialization of the new record.
An exception leaves the old version marked. -/
def Call.replace (call : Call) (id : RecordID) (lsn : Option Nat) :
    Except RecordError (List UInt8) → Except HeapError Unit × Call
  | .error failure => (.error (.thrown failure), call)
  | .ok bytes => call.successor lsn (findRoom none (stampVersion bytes call.transaction.id id)
      call.heap)

/-- The second part of `update`, if the first one has succeeded. -/
def replaceMarked (layout : TupleLayout) (id : RecordID) (record : Record) (lsn : Option Nat) :
    Except HeapError Unit × Call → Except HeapError Unit × Call
  | (.error failure, call) => (.error failure, call)
  | (.ok _, call) => call.replace id lsn (RecordSerializer.serialize record layout)

def update (layout : TupleLayout) (heap : TableHeap) (transaction : Transaction) (id : RecordID)
    (record : Record) (markLsn insertLsn : Option Nat) : Except HeapError Unit × Call :=
  replaceMarked layout id record insertLsn (markDeleted .update heap transaction id markLsn)

def erase (heap : TableHeap) (transaction : Transaction) (id : RecordID)
    (lsn : Option Nat) : Except HeapError Unit × Call :=
  markDeleted .delete heap transaction id lsn

end TableHeap

end KlyroDB
