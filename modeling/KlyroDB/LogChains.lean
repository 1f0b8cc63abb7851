import KlyroDB.BackwardChains
import KlyroDB.LoggedChanges
import KlyroDB.WalDurability

/-!
# The chain of log records of a transaction

Transactions over one table heap that share one log.  A call is cut behind each
record that it appends.  The record that ends a transaction does not become its
last one: whatever the transaction logs after it links past it.
-/

namespace KlyroDB


/-- The manager, a table heap and the log.  `starting` are the transactions
whose `begin` is still to append its record, `handles` those it has
returned. -/
structure LoggedHeap where
  manager : TransactionManager := {}
  heap : TableHeap
  wal : WALManager
  starting : List Nat := []
  handles : List Nat := []
  log : List LogRecord := []

/-- The parts of the calls, with the answers of the file system to the appends
and flushes in them. -/
inductive LogStep
  | register (isoLevel : IsolationLevel)
  | logBegin (id : Nat) (io : FlushIO)
  | insert (writer : Nat) (layout : TupleLayout) (record : Record)
      (order : DescendingSort TablePage.SlotRef.offset) (io : FlushIO)
  | mark (writer : Nat) (id : RecordID) (io : FlushIO)
  | replace (writer : Nat) (layout : TupleLayout) (id : RecordID) (record : Record) (io : FlushIO)
  | erase (writer : Nat) (id : RecordID) (io : FlushIO)
  | commit (pointer : Option Nat) (appending flushing : FlushIO)
  | logAbort (pointer : Option Nat) (io : FlushIO)
  | logEnd (pointer : Option Nat) (appending flushing : FlushIO)

namespace TableHeap

/-- The pages when the append in `insert` throws: the record is in the new
page, which is not linked. -/
def insertThrown (supply : PageSupply) (layout : TupleLayout)
    (heap : TableHeap) (transaction : Transaction) (record : Record)
    (order : DescendingSort TablePage.SlotRef.offset) : TableHeap :=
  match RecordSerializer.serialize record layout with
  | .error _ => heap
  | .ok bytes =>
      let bytes := stampVersion bytes transaction.id {}
      match findRoom (some order) bytes heap with
      | (.full last, heap) =>
          match allocatePage supply heap with
          | (.error _, heap) => heap
          | (.ok page, heap) => heap.putPage ((page.init.setPrevPageId last).insert bytes).2
      | (_, heap) => heap

end TableHeap

namespace LoggedHeap

/-- An append that returns puts the record into the log. -/
def append (state : LoggedHeap) (record : LogRecord) (io : FlushIO) :
    LoggedHeap × Except WALError Nat :=
  match state.wal.append record io with
  | (wal, .ok lsn) =>
      ({ state with wal := wal,
                    log := state.log ++ [{ record with lsn := lsn }] },
        .ok lsn)
  | (wal, .error failure) => ({ state with wal := wal }, .error failure)

def setTransaction (state : LoggedHeap) (id : Nat) (transaction : Transaction) : LoggedHeap :=
  { state with
    manager :=
      { state.manager with
        transactions := state.manager.transactions.insert id transaction } }

/-- The object behind a pointer that `begin` has returned. -/
def held (state : LoggedHeap) (pointer : Option Nat) : Option Transaction :=
  pointer.bind fun id =>
    if id ∈ state.handles then state.manager.transactions.lookup id else none

def heldActive (state : LoggedHeap) (pointer : Option Nat) : Option Transaction :=
  (state.held pointer).filter fun transaction => transaction.state = .active

/-- A part of a heap call.  No heap call looks at the state of its
transaction.  If the append throws, the page is changed but the transaction is
not. -/
def write (state : LoggedHeap) (writer : Nat) (operation : Transaction → Option Nat →
    TableHeap.Call) (thrown : Transaction → TableHeap) (io : FlushIO) : LoggedHeap :=
  match state.held (some writer) with
  | none => state
  | some transaction =>
      let call := operation transaction (some state.wal.nextLsn)
      match call.log with
      | [] =>
          { state with heap := call.heap }.setTransaction writer call.transaction
      | record :: _ =>
          match state.append record io with
          | (after, .ok _) =>
              { after with heap := call.heap }.setTransaction writer call.transaction
          | (after, .error _) => { after with heap := thrown transaction }

/-- `begin` up to the append of its record. -/
def register (state : LoggedHeap) (isoLevel : IsolationLevel) : LoggedHeap :=
  { state with
    manager := (state.manager.begin isoLevel .throws).1
    starting := state.manager.nextTxnId :: state.starting }

def logBegin (state : LoggedHeap) (id : Nat) (io : FlushIO) : LoggedHeap :=
  if id ∈ state.starting then
    let waiting := { state with starting := state.starting.erase id }
    match waiting.append { txnId := id, type := .txnBegin } io with
    | (after, .error _) => after
    | (after, .ok lsn) =>
        match after.manager.transactions.lookup id with
        | none => after
        | some transaction =>
            { after with handles := id :: after.handles }.setTransaction id
              { transaction with lastLsn := lsn }
  else state

def commit (state : LoggedHeap) (pointer : Option Nat)
    (appending flushing : FlushIO) : LoggedHeap :=
  match state.heldActive pointer with
  | none => state
  | some transaction =>
      match state.append { txnId := transaction.id,
                           prevLsn := transaction.lastLsn,
                           type := .txnCommit } appending with
      | (after, .error _) => after
      | (after, .ok lsn) =>
          match after.wal.flushUpTo lsn flushing with
          | (wal, .error _) => { after with wal := wal }
          | (wal, .ok _) =>
              { after with
                wal := wal
                manager := after.manager.finish transaction .committed }

def logAbort (state : LoggedHeap) (pointer : Option Nat) (io : FlushIO) : LoggedHeap :=
  match state.heldActive pointer with
  | none => state
  | some transaction =>
      match state.append { txnId := transaction.id,
                           prevLsn := transaction.lastLsn,
                           type := .txnAbort } io with
      | (after, .error _) => after
      | (after, .ok lsn) =>
          after.setTransaction transaction.id { transaction with lastLsn := lsn }

def logEnd (state : LoggedHeap) (pointer : Option Nat)
    (appending flushing : FlushIO) : LoggedHeap :=
  match state.heldActive pointer with
  | none => state
  | some transaction =>
      match state.append { txnId := transaction.id,
                           prevLsn := transaction.lastLsn,
                           type := .txnEnd } appending with
      | (after, .error _) => after
      | (after, .ok _) =>
          match after.wal.flush flushing with
          | (wal, .error _) => { after with wal := wal }
          | (wal, .ok _) =>
              { after with
                wal := wal
                manager := after.manager.finish transaction .aborted }

def step (supply : PageSupply) (state : LoggedHeap) : LogStep → LoggedHeap
  | .register isoLevel => state.register isoLevel
  | .logBegin id io => state.logBegin id io
  | .insert writer layout record order io =>
      state.write writer
        (fun transaction lsn =>
          (TableHeap.insert supply layout state.heap transaction record order lsn).2)
        (fun transaction =>
          TableHeap.insertThrown supply layout state.heap transaction record order) io
  | .mark writer id io =>
      state.write writer
        (fun transaction lsn =>
          (TableHeap.markDeleted .update state.heap transaction id lsn).2)
        (fun transaction =>
          (TableHeap.markDeleted .update state.heap transaction id none).2.heap) io
  | .replace writer layout id record io =>
      state.write writer
        (fun transaction lsn =>
          (TableHeap.Call.replace ⟨state.heap, transaction, []⟩ id lsn
            (RecordSerializer.serialize record layout)).2)
        (fun transaction =>
          (TableHeap.Call.replace ⟨state.heap, transaction, []⟩ id none
            (RecordSerializer.serialize record layout)).2.heap) io
  | .erase writer id io =>
      state.write writer
        (fun transaction lsn =>
          (TableHeap.erase state.heap transaction id lsn).2)
        (fun transaction =>
          (TableHeap.erase state.heap transaction id none).2.heap) io
  | .commit pointer appending flushing => state.commit pointer appending flushing
  | .logAbort pointer io => state.logAbort pointer io
  | .logEnd pointer appending flushing => state.logEnd pointer appending flushing

def initial (supply : PageSupply) (wal : WALManager) : LoggedHeap where
  heap := TableHeap.create supply
  wal := wal

def run (supply : PageSupply) (wal : WALManager) (steps : List LogStep) : LoggedHeap :=
  GuardedRuns.run (step supply) (initial supply wal) steps

end LoggedHeap

namespace WALManager

section

variable (manager : WALManager)

include manager

theorem nextLsn_rollSegmentIfNeeded (opens : Bool) :
    (manager.rollSegmentIfNeeded opens).1.nextLsn = manager.nextLsn := by
  rw [rollSegmentIfNeeded]
  split_ifs with small
  · rfl
  dsimp only
  generalize WALSegment.openAppend _ _ _ opens = opened
  cases opened with
  | none | some opened => rfl

theorem nextLsn_writeFlushBuffer (write : SegmentWrite) :
    (manager.writeFlushBuffer write).1.nextLsn = manager.nextLsn := by
  rw [writeFlushBuffer]
  generalize manager.segment.append manager.directory manager.flushBuffer write = written
  obtain ⟨succeeded, segment, files⟩ := written
  cases succeeded with
  | false | true => rfl

theorem nextLsn_executeFlush (io : FlushIO) :
    (manager.executeFlush io).1.nextLsn = manager.nextLsn := by
  rw [executeFlush]
  split_ifs with empty
  · rfl
  dsimp only
  have rolled := nextLsn_rollSegmentIfNeeded
    { manager with buffer := manager.flushBuffer,
                   flushBuffer := manager.buffer } io.opens
  generalize WALManager.rollSegmentIfNeeded _ io.opens = result at rolled ⊢
  obtain ⟨after, outcome⟩ := result
  cases outcome with
  | error failure => exact rolled
  | ok done => exact (nextLsn_writeFlushBuffer after io.write).trans rolled

theorem nextLsn_flushUpTo (target : Nat) (io : FlushIO) :
    (manager.flushUpTo target io).1.nextLsn = manager.nextLsn := by
  rw [flushUpTo]
  split_ifs with flushed
  · rfl
  · exact nextLsn_executeFlush manager io

/-- An append uses up one number, whether it returns or not. -/
theorem append_cases (record : LogRecord) (io : FlushIO) :
    ∃ after, after.nextLsn = manager.nextLsn + 1 ∧
      (manager.append record io = (after, .ok manager.nextLsn) ∨
        ∃ failure, manager.append record io = (after, .error failure)) := by
  rw [append]
  cases LogBuffer.append manager.buffer { record with lsn := manager.nextLsn } with
  | some buffer => exact ⟨_, rfl, Or.inl rfl⟩
  | none =>
    have flushed := nextLsn_executeFlush { manager with nextLsn := manager.nextLsn + 1 } io
    dsimp only [flush]
    generalize WALManager.executeFlush _ io = result at flushed ⊢
    obtain ⟨after, outcome⟩ := result
    cases outcome with
    | error failure => exact ⟨after, flushed, Or.inr ⟨failure, rfl⟩⟩
    | ok done =>
      dsimp only
      cases LogBuffer.append after.buffer { record with lsn := manager.nextLsn } with
      | some buffer =>
        exact ⟨{ after with buffer := buffer }, flushed, Or.inl rfl⟩
      | none => exact ⟨after, flushed, Or.inr ⟨_, rfl⟩⟩

end

end WALManager

namespace TableHeap

def LogsOnce (transaction : Transaction) (lsn : Nat) (call : Call) : Prop :=
  call.transaction.id = transaction.id ∧ (call.log = [] ∧ call.transaction.lastLsn =
    transaction.lastLsn ∨ call.transaction.lastLsn = lsn ∧ ∃ record : LogRecord, call.log = [record]
    ∧ record.txnId = transaction.id ∧ record.prevLsn = transaction.lastLsn ∧ record.type ≠
    .txnBegin)

theorem logsOnce_of_log_nil {transaction : Transaction} {lsn : Nat}
    {heap : TableHeap} : LogsOnce transaction lsn ⟨heap, transaction, []⟩ :=
  ⟨rfl, Or.inl ⟨rfl, rfl⟩⟩

theorem logsOnce_logPage (heap : TableHeap) (transaction : Transaction)
    {type : LogRecordType} (other : type ≠ .txnBegin) (page : TablePage) (lsn : Nat) :
    LogsOnce transaction lsn (Call.logPage ⟨heap, transaction, []⟩ type page (some lsn)) :=
  ⟨rfl, Or.inr ⟨rfl, _, rfl, rfl, rfl, other⟩⟩

theorem logsOnce_markDeleted {type : LogRecordType}
    (other : type ≠ .txnBegin) (heap : TableHeap) (transaction : Transaction)
    (id : RecordID) (lsn : Nat) :
    LogsOnce transaction lsn (TableHeap.markDeleted type heap transaction id (some lsn)).2 := by
  rw [TableHeap.markDeleted]
  cases heap.fetchPage id.pageId with
  | error status => exact logsOnce_of_log_nil
  | ok page =>
    dsimp only
    cases page.get id with
    | error status => exact logsOnce_of_log_nil
    | ok bytes =>
      dsimp only [Call.markBytes]
      split_ifs with small claimed
      · exact logsOnce_of_log_nil
      · exact logsOnce_of_log_nil
      generalize page.update id _ = result
      obtain ⟨outcome, after⟩ := result
      cases outcome with
      | error status => exact logsOnce_of_log_nil
      | ok done => exact logsOnce_logPage _ transaction other after lsn

theorem logsOnce_replace (layout : TupleLayout) (heap : TableHeap)
    (transaction : Transaction) (id : RecordID) (record : Record) (lsn : Nat) :
    LogsOnce transaction lsn (Call.replace ⟨heap, transaction, []⟩ id (some lsn)
        (RecordSerializer.serialize record layout)).2 := by
  cases RecordSerializer.serialize record layout with
  | error failure => exact logsOnce_of_log_nil
  | ok bytes =>
    dsimp only [Call.replace]
    generalize TableHeap.findRoom none _ heap = result
    obtain ⟨outcome, after⟩ := result
    cases outcome with
    | failed status | full last => exact logsOnce_of_log_nil
    | inserted newId =>
      dsimp only [Call.successor]
      cases after.fetchPage newId.pageId with
      | error status => exact logsOnce_of_log_nil
      | ok page => exact logsOnce_logPage after transaction (by decide) page lsn

theorem logsOnce_insert (supply : PageSupply) (layout : TupleLayout)
    (heap : TableHeap) (transaction : Transaction) (record : Record)
    (order : DescendingSort TablePage.SlotRef.offset) (lsn : Nat) :
    LogsOnce transaction lsn (TableHeap.insert supply layout heap transaction record order
        (some lsn)).2 := by
  rw [TableHeap.insert]
  cases RecordSerializer.serialize record layout with
  | error failure => exact logsOnce_of_log_nil
  | ok bytes =>
    rw [TableHeap.insertBytes]
    generalize TableHeap.findRoom (some order) _ heap = result
    obtain ⟨outcome, after⟩ := result
    cases outcome with
    | inserted id | failed status => exact logsOnce_of_log_nil
    | full last =>
      dsimp only [Call.extendChain]
      rw [allocatePage]
      cases supply.page after.allocated with
      | none => exact logsOnce_of_log_nil
      | some source =>
        dsimp only
        generalize (source.init.setPrevPageId last).insert _ = result
        obtain ⟨outcome, page⟩ := result
        cases outcome with
        | error status => exact logsOnce_of_log_nil
        | ok id => exact logsOnce_logPage _ transaction (by decide) page lsn

end TableHeap

namespace LoggedHeap

def recordsOf (log : List LogRecord) (id : Nat) : List LogRecord :=
  log.filter fun record => record.txnId = id

def Ended (log : List LogRecord) (id : Nat) : Prop :=
  ∃ record ∈ log, record.txnId = id ∧ (record.type = .txnCommit ∨ record.type = .txnEnd)

/-- One `TxnBegin` record without a predecessor, and each other record links
to the one before it. -/
structure SingleChain (records : List LogRecord) : Prop where
  begins : ∀ first ∈ records.head?, first.type = .txnBegin
  once : ∀ record ∈ records.tail, record.type ≠ .txnBegin
  chained : BackwardChain.Chained LogRecord.lsn LogRecord.prevLsn LSN.invalid records

theorem singleChain_nil : SingleChain [] :=
  ⟨by simp, by simp, trivial⟩

variable {record : LogRecord} {id : Nat}

theorem SingleChain.concat {records : List LogRecord}
    (chain : SingleChain records) (begun : records ≠ [])
    (other : record.type ≠ .txnBegin) (linked : record.prevLsn =
      BackwardChain.tip LogRecord.lsn LSN.invalid records)
    (later : BackwardChain.tip LogRecord.lsn LSN.invalid records <
      record.lsn) : SingleChain (records ++ [record]) := by
  obtain ⟨first, rest, rfl⟩ := List.exists_cons_of_ne_nil begun
  refine ⟨chain.begins, ?_, chain.chained.concat linked later⟩
  intro entry mem
  rcases List.mem_append.mp mem with early | last
  · exact chain.once entry early
  · rw [List.mem_singleton.mp last]
    exact other

theorem recordsOf_concat (log : List LogRecord) (record : LogRecord) (id : Nat) :
    recordsOf (log ++ [record]) id =
      recordsOf log id ++ if record.txnId = id then [record] else [] := by
  rw [recordsOf, recordsOf, List.filter_append, List.filter_singleton]
  by_cases same : record.txnId = id
  · rw [if_pos same, decide_eq_true same]
    rfl
  · rw [if_neg same, decide_eq_false same]
    rfl

theorem recordsOf_concat_self (log : List LogRecord) (own : record.txnId = id) :
    recordsOf (log ++ [record]) id = recordsOf log id ++ [record] := by
  rw [recordsOf_concat, if_pos own]

theorem recordsOf_concat_of_ne (log : List LogRecord) (other : record.txnId ≠ id) :
    recordsOf (log ++ [record]) id = recordsOf log id := by
  rw [recordsOf_concat, if_neg other, List.append_nil]

theorem Ended.concat {log : List LogRecord} (ended : Ended log id)
    (record : LogRecord) : Ended (log ++ [record]) id := by
  obtain ⟨last, mem, own, type⟩ := ended
  exact ⟨last, List.mem_append_left _ mem, own, type⟩

/-- What holds in all states: the numbers of the log are used up, the
transactions that have not logged anything are known, and an open transaction
remembers the number of its last record. -/
structure Threaded (state : LoggedHeap) : Prop where
  positive : 0 < state.wal.nextLsn
  below : ∀ record ∈ state.log, record.lsn < state.wal.nextLsn
  named : ∀ id transaction, state.manager.transactions.lookup id = some transaction → transaction.id
    = id
  issued : ∀ id, state.manager.nextTxnId ≤ id →
    recordsOf state.log id = [] ∧ id ∉ state.starting ∧ id ∉ state.handles
  distinct : state.starting.Nodup
  waiting : ∀ id ∈ state.starting, recordsOf state.log id = [] ∧ id ∉ state.handles
  begun : ∀ id ∈ state.handles, recordsOf state.log id ≠ []
  chains : ∀ id, SingleChain (recordsOf state.log id)
  tips : ∀ id ∈ state.handles, ¬ Ended state.log id → ∀ transaction,
    state.manager.transactions.lookup id = some transaction → transaction.lastLsn =
    BackwardChain.tip LogRecord.lsn LSN.invalid (recordsOf state.log id)

theorem threaded_initial (supply : PageSupply) {wal : WALManager}
    (valid : 0 < wal.nextLsn) : Threaded (initial supply wal) where
  positive := valid
  below := fun record mem => by contradiction
  named := fun id transaction found => by
    change (∅ : AList fun _ : Nat => Transaction).lookup id = _ at found
    contradiction
  issued := fun id _ => ⟨rfl, List.not_mem_nil, List.not_mem_nil⟩
  distinct := List.nodup_nil
  waiting := fun id mem => by contradiction
  begun := fun id mem => by contradiction
  chains := fun id => singleChain_nil
  tips := fun id mem => by contradiction

inductive Effect (state next : LoggedHeap) : Prop
  | quiet (counter : next.manager.nextTxnId = state.manager.nextTxnId)
      (starting_eq : next.starting = state.starting) (handles_eq : next.handles = state.handles)
      (log_eq : next.log = state.log) (lsn_le : state.wal.nextLsn ≤ next.wal.nextLsn)
      (objects : ∀ id later, next.manager.transactions.lookup id = some later →
        ∃ earlier, state.manager.transactions.lookup id = some earlier ∧
          later.id = earlier.id ∧ later.lastLsn = earlier.lastLsn)
  | logged (writer : Nat) (transaction : Transaction) (record : LogRecord)
      (handle : writer ∈ state.handles) (unended : ¬ Ended state.log writer)
      (found : state.manager.transactions.lookup writer = some transaction)
      (own : record.txnId = writer)
      (linked : record.prevLsn = transaction.lastLsn) (numbered : record.lsn = state.wal.nextLsn)
      (other : record.type ≠ .txnBegin) (counter : next.manager.nextTxnId = state.manager.nextTxnId)
      (starting_eq : next.starting = state.starting) (handles_eq : next.handles = state.handles)
      (log_eq : next.log = state.log ++ [record]) (lsn_lt : state.wal.nextLsn < next.wal.nextLsn)
      (objects : ∀ id later, next.manager.transactions.lookup id = some later →
        ∃ earlier, state.manager.transactions.lookup id = some earlier ∧ later.id = earlier.id ∧
          (id ≠ writer ∧ later.lastLsn = earlier.lastLsn ∨
            id = writer ∧ (later.lastLsn = record.lsn ∨
              record.type = .txnCommit ∨ record.type = .txnEnd)))

section Preservation

variable {state next : LoggedHeap}

variable {transaction : Transaction} {pointer : Option Nat}

theorem Threaded.chains_concat (threaded : Threaded state) {writer : Nat}
    {record : LogRecord} (handle : writer ∈ state.handles) (unended : ¬ Ended state.log writer)
    (found : state.manager.transactions.lookup writer = some transaction)
    (own : record.txnId = writer) (linked : record.prevLsn = transaction.lastLsn)
    (numbered : record.lsn = state.wal.nextLsn) (other : record.type ≠ .txnBegin) (id : Nat) :
    SingleChain (recordsOf (state.log ++ [record]) id) := by
  by_cases same : record.txnId = id
  · have sameWriter : writer = id := own.symm.trans same
    subst sameWriter
    rw [recordsOf_concat_self _ own]
    refine (threaded.chains writer).concat (threaded.begun writer handle) other ?_ ?_
    · rw [linked]
      exact threaded.tips writer handle unended transaction found
    · rw [numbered]
      apply BackwardChain.tip_lt threaded.positive
      intro entry mem
      exact threaded.below entry (List.mem_of_mem_filter mem)
  · rw [recordsOf_concat_of_ne _ same]
    exact threaded.chains id

theorem Threaded.effect (threaded : Threaded state)
    (effect : Effect state next) : Threaded next := by
  cases effect with
  | quiet counter starting_eq handles_eq log_eq lsn_le objects =>
    obtain ⟨positive, below, named, issued, distinct, waiting, begun, chains, tips⟩ := threaded
    rw [← log_eq] at below chains
    rw [← handles_eq, ← log_eq] at begun tips
    rw [← starting_eq] at distinct
    rw [← starting_eq, ← handles_eq, ← log_eq] at waiting
    rw [← counter, ← starting_eq, ← handles_eq, ← log_eq] at issued
    refine ⟨positive.trans_le lsn_le, fun record mem => (below record mem).trans_le lsn_le,
      ?_, issued, distinct, waiting, begun, chains, ?_⟩
    · intro id later found
      obtain ⟨earlier, before, sameId, _⟩ := objects id later found
      exact sameId.trans (named id earlier before)
    · intro id handle unended later found
      obtain ⟨earlier, before, _, sameLsn⟩ := objects id later found
      exact sameLsn.trans (tips id handle unended earlier before)
  | logged writer transaction record handle unended found own linked numbered
      other counter starting_eq handles_eq log_eq lsn_lt objects =>
      have absent {id : Nat} (ne : id ≠ writer) :
          recordsOf (state.log ++ [record]) id = recordsOf state.log id := by
        apply recordsOf_concat_of_ne
        rw [own]
        exact ne.symm
      refine ⟨threaded.positive.trans lsn_lt, ?_, ?_, ?_, ?_, ?_, ?_, ?_, ?_⟩
      · rw [log_eq]
        intro entry mem
        rcases List.mem_append.mp mem with early | last
        · exact (threaded.below entry early).trans lsn_lt
        · rw [List.mem_singleton.mp last, numbered]
          exact lsn_lt
      · intro id later there
        obtain ⟨earlier, before, sameId, _⟩ := objects id later there
        exact sameId.trans (threaded.named id earlier before)
      · rw [counter, starting_eq, handles_eq, log_eq]
        intro id unknown
        obtain ⟨nothing, notStarting, notHandle⟩ := threaded.issued id unknown
        rw [absent (ne_of_mem_of_not_mem handle notHandle).symm]
        exact ⟨nothing, notStarting, notHandle⟩
      · rw [starting_eq]
        exact threaded.distinct
      · rw [starting_eq, handles_eq, log_eq]
        intro id waits
        obtain ⟨nothing, notHandle⟩ := threaded.waiting id waits
        rw [absent (ne_of_mem_of_not_mem handle notHandle).symm]
        exact ⟨nothing, notHandle⟩
      · rw [handles_eq, log_eq]
        intro id handled empty
        rw [recordsOf_concat] at empty
        exact threaded.begun id handled (List.append_eq_nil_iff.mp empty).1
      · rw [log_eq]
        exact threaded.chains_concat handle unended found own linked numbered other
      rw [handles_eq, log_eq]
      intro id handled stillOpen later there
      obtain ⟨earlier, before, _, ⟨ne, sameLsn⟩ | ⟨same, last⟩⟩ := objects id later there
      · rw [absent ne, sameLsn]
        refine threaded.tips id handled ?_ earlier before
        exact fun ended => stillOpen (ended.concat record)
      subst same
      rw [recordsOf_concat_self _ own, BackwardChain.tip_concat]
      rcases last with sameLsn | ends
      · exact sameLsn
      · exact absurd ⟨record, by simp, own, ends⟩ stillOpen

theorem Threaded.register (threaded : Threaded state)
    (isoLevel : IsolationLevel) : Threaded (state.register isoLevel) := by
  obtain ⟨nothing, notStarting, notHandle⟩ := threaded.issued state.manager.nextTxnId le_rfl
  refine ⟨threaded.positive, threaded.below, ?_, ?_, List.nodup_cons.mpr
    ⟨notStarting, threaded.distinct⟩, ?_, threaded.begun, threaded.chains, ?_⟩
  · intro id transaction found
    rcases AList.lookup_insert_cases found with ⟨rfl, rfl⟩ | ⟨_, found⟩
    · rfl
    · exact threaded.named id transaction found
  · intro id unknown
    have later : state.manager.nextTxnId + 1 ≤ id := unknown
    obtain ⟨empty, outside, unhandled⟩ := threaded.issued id (by omega)
    refine ⟨empty, ?_, unhandled⟩
    rw [LoggedHeap.register, List.mem_cons, not_or]
    exact ⟨by omega, outside⟩
  · intro id waits
    rcases List.mem_cons.mp waits with rfl | waits
    · exact ⟨nothing, notHandle⟩
    · exact threaded.waiting id waits
  intro id handle unended transaction found
  rcases AList.lookup_insert_cases found with ⟨rfl, _⟩ | ⟨_, found⟩
  · exact absurd handle notHandle
  · exact threaded.tips id handle unended transaction found

theorem append_cases (state : LoggedHeap) (record : LogRecord) (io : FlushIO) :
    ∃ wal, wal.nextLsn = state.wal.nextLsn + 1 ∧
      (state.append record io =
          ({ state with wal := wal,
                        log := state.log ++ [{ record with lsn := state.wal.nextLsn }] },
            .ok state.wal.nextLsn) ∨
        ∃ failure, state.append record io = ({ state with wal := wal }, .error failure)) := by
  rw [append]
  obtain ⟨wal, next, returned | ⟨failure, threw⟩⟩ := state.wal.append_cases record io
  · rw [returned]
    exact ⟨wal, next, Or.inl rfl⟩
  · rw [threw]
    exact ⟨wal, next, Or.inr ⟨failure, rfl⟩⟩

theorem Effect.refl (state : LoggedHeap) : Effect state state :=
  .quiet rfl rfl rfl rfl le_rfl fun _ later found => ⟨later, found, rfl, rfl⟩

theorem Effect.threw {wal : WALManager}
    (lsn : wal.nextLsn = state.wal.nextLsn + 1) (heap : TableHeap) :
    Effect state { state with wal := wal, heap := heap } :=
  .quiet rfl rfl rfl rfl (lsn ▸ Nat.le_succ _) fun _ later found => ⟨later, found, rfl, rfl⟩

theorem lookup_held (found : state.held pointer = some transaction) :
    ∃ id ∈ state.handles, pointer = some id ∧
      state.manager.transactions.lookup id = some transaction := by
  obtain ⟨id, rfl, present⟩ := Option.bind_eq_some_iff.mp found
  split_ifs at present with handle
  exact ⟨id, handle, rfl, present⟩

theorem lookup_heldActive (threaded : Threaded state)
    (found : state.heldActive pointer = some transaction) :
    transaction.id ∈ state.handles ∧
      state.manager.transactions.lookup transaction.id = some transaction := by
  obtain ⟨id, handle, _, there⟩ := lookup_held (Option.mem_filter_iff.mp found).1
  rw [threaded.named id transaction there]
  exact ⟨handle, there⟩

/-- A part of a heap call by a transaction that has not ended. -/
theorem Threaded.write (threaded : Threaded state) {writer : Nat}
    (unended : ¬ Ended state.log writer) {operation : Transaction → Option Nat → TableHeap.Call}
    (logs : ∀ transaction lsn,
      TableHeap.LogsOnce transaction lsn (operation transaction (some lsn)))
    (thrown : Transaction → TableHeap) (io : FlushIO) :
    Threaded (state.write writer operation thrown io) := by
  apply threaded.effect
  rw [LoggedHeap.write]
  cases there : state.held (some writer) with
  | none => exact Effect.refl state
  | some transaction =>
    obtain ⟨id, handle, same, found⟩ := lookup_held there
    obtain rfl : writer = id := Option.some.inj same
    dsimp only
    have once := logs transaction state.wal.nextLsn
    generalize operation transaction (some state.wal.nextLsn) = call at once
    obtain ⟨heap, after, log⟩ := call
    obtain ⟨sameId, ⟨rfl, sameLsn⟩ | ⟨newLsn, record, rfl, own, linked, other⟩⟩ := once
    · refine .quiet rfl rfl rfl rfl le_rfl ?_
      intro id later present
      rcases AList.lookup_insert_cases present with ⟨rfl, rfl⟩ | ⟨_, present⟩
      · exact ⟨transaction, found, sameId, sameLsn⟩
      · exact ⟨later, present, rfl, rfl⟩
    dsimp only
    obtain ⟨wal, next, returned | ⟨failure, threw⟩⟩ := state.append_cases record io
    · rw [returned]
      refine .logged writer transaction { record with lsn := state.wal.nextLsn } handle unended
        found (own.trans (threaded.named writer transaction found)) linked rfl other rfl rfl rfl
        rfl (next ▸ Nat.lt_succ_self _) ?_
      intro id later present
      rcases AList.lookup_insert_cases present with ⟨rfl, rfl⟩ | ⟨ne, present⟩
      · exact ⟨transaction, found, sameId, Or.inr ⟨rfl, Or.inl newLsn⟩⟩
      · exact ⟨later, present, rfl, Or.inl ⟨ne, rfl⟩⟩
    · rw [threw]
      exact Effect.threw next _

section

variable (threaded : Threaded state)
  (unended : ∀ transaction, state.heldActive pointer = some transaction →
    ¬ Ended state.log transaction.id)

include threaded unended

/-- The record that ends a transaction is appended and flushed, and the
transaction is finished unless the flush throws. -/
theorem Threaded.end_effect {type : LogRecordType} (ends : type = .txnCommit ∨ type = .txnEnd)
    (appending : FlushIO) {flush : WALManager → Nat → WALManager × Except WALError Unit}
    (flushed : ∀ wal lsn, (flush wal lsn).1.nextLsn = wal.nextLsn) (final : TransactionState) :
    Effect state (match state.heldActive pointer with
      | none => state
      | some transaction =>
        match state.append { txnId := transaction.id, prevLsn := transaction.lastLsn,
                             type := type } appending with
        | (after, .error _) => after
        | (after, .ok lsn) =>
          match flush after.wal lsn with
          | (wal, .error _) => { after with wal := wal }
          | (wal, .ok _) =>
            { after with wal := wal, manager := after.manager.finish transaction final }) := by
  cases active : state.heldActive pointer with
  | none => exact Effect.refl state
  | some transaction =>
    dsimp only
    obtain ⟨handle, found⟩ := lookup_heldActive threaded active
    have other : type ≠ .txnBegin := by
      rcases ends with rfl | rfl
      · decide
      · decide
    obtain ⟨wal, lsn, returned | ⟨failure, threw⟩⟩ := state.append_cases
      { txnId := transaction.id, prevLsn := transaction.lastLsn, type := type } appending
    · rw [returned]
      dsimp only
      have same := flushed wal state.wal.nextLsn
      generalize flush wal state.wal.nextLsn = result at same ⊢
      obtain ⟨after, outcome⟩ := result
      have lsn_lt : state.wal.nextLsn < after.nextLsn := by
        rw [same, lsn]
        exact Nat.lt_succ_self _
      cases outcome with
      | error failure =>
        refine .logged transaction.id transaction _ handle (unended _ active) found rfl rfl rfl
          other rfl rfl rfl rfl lsn_lt fun id later present => ⟨later, present, rfl, ?_⟩
        by_cases own : id = transaction.id
        · exact Or.inr ⟨own, Or.inr ends⟩
        · exact Or.inl ⟨own, rfl⟩
      | ok done =>
        refine .logged transaction.id transaction _ handle (unended _ active) found rfl rfl rfl
          other rfl rfl rfl rfl lsn_lt fun id later present => ?_
        rcases AList.lookup_insert_cases present with ⟨rfl, rfl⟩ | ⟨ne, present⟩
        · exact ⟨transaction, found, rfl, Or.inr ⟨rfl, Or.inr ends⟩⟩
        · exact ⟨later, present, rfl, Or.inl ⟨ne, rfl⟩⟩
    · rw [threw]
      exact Effect.threw lsn state.heap

theorem Threaded.commit_effect (appending flushing : FlushIO) :
    Effect state (state.commit pointer appending flushing) :=
  threaded.end_effect unended (Or.inl rfl) appending
    (fun wal lsn => wal.nextLsn_flushUpTo lsn flushing) .committed

theorem Threaded.logEnd_effect (appending flushing : FlushIO) :
    Effect state (state.logEnd pointer appending flushing) :=
  threaded.end_effect unended (Or.inr rfl) appending
    (fun wal _ => wal.nextLsn_executeFlush flushing) .aborted

theorem Threaded.logAbort_effect (io : FlushIO) : Effect state (state.logAbort pointer io) := by
  rw [logAbort]
  cases active : state.heldActive pointer with
  | none => exact Effect.refl state
  | some transaction =>
    dsimp only
    obtain ⟨handle, found⟩ := lookup_heldActive threaded active
    obtain ⟨wal, lsn, returned | ⟨failure, threw⟩⟩ := state.append_cases
      { txnId := transaction.id, prevLsn := transaction.lastLsn,
        type := .txnAbort } io
    · rw [returned]
      have other : LogRecordType.txnAbort ≠ .txnBegin := by decide
      refine .logged transaction.id transaction _ handle (unended _ active) found rfl rfl rfl other
        rfl rfl rfl rfl (lsn ▸ Nat.lt_succ_self _) ?_
      intro id later present
      rcases AList.lookup_insert_cases present with ⟨rfl, rfl⟩ | ⟨ne, present⟩
      · exact ⟨transaction, found, rfl, Or.inr ⟨rfl, Or.inl rfl⟩⟩
      · exact ⟨later, present, rfl, Or.inl ⟨ne, rfl⟩⟩
    · rw [threw]
      exact Effect.threw lsn state.heap

end

theorem Threaded.beginRecord (threaded : Threaded state) {id : Nat}
    (waits : id ∈ state.starting) {wal : WALManager}
    (lsn : wal.nextLsn = state.wal.nextLsn + 1) :
    Threaded { state with
      starting := state.starting.erase id
      wal := wal
      log := state.log ++ [{ lsn := state.wal.nextLsn, txnId := id,
                             type := .txnBegin }] } := by
  obtain ⟨nothing, notHandle⟩ := threaded.waiting id waits
  have absent {other : Nat} (ne : other ≠ id) :
      recordsOf (state.log ++
        [({ lsn := state.wal.nextLsn, txnId := id,
            type := .txnBegin } : LogRecord)]) other =
          recordsOf state.log other :=
    recordsOf_concat_of_ne _ ne.symm
  refine ⟨?_, ?_, threaded.named, ?_, threaded.distinct.erase id, ?_, ?_, ?_, ?_⟩
  · change 0 < wal.nextLsn
    rw [lsn]
    exact Nat.succ_pos _
  · intro record mem
    rw [lsn]
    rcases List.mem_append.mp mem with early | last
    · exact (threaded.below record early).trans (Nat.lt_succ_self _)
    · rw [List.mem_singleton.mp last]
      exact Nat.lt_succ_self _
  · intro other unknown
    obtain ⟨empty, notStarting, unhandled⟩ := threaded.issued other unknown
    exact ⟨(absent (ne_of_mem_of_not_mem waits notStarting).symm).trans empty,
      fun mem => notStarting (List.mem_of_mem_erase mem), unhandled⟩
  · intro other mem
    obtain ⟨ne, there⟩ := (threaded.distinct.mem_erase_iff).mp mem
    obtain ⟨empty, unhandled⟩ := threaded.waiting other there
    exact ⟨(absent ne).trans empty, unhandled⟩
  · intro other handle empty
    have ne := ne_of_mem_of_not_mem handle notHandle
    exact threaded.begun other handle ((absent ne).symm.trans empty)
  · intro other
    by_cases same : id = other
    · subst same
      rw [recordsOf_concat_self _ rfl, nothing]
      exact ⟨by simp, by simp, rfl, threaded.positive, trivial⟩
    · dsimp only
      rw [absent (Ne.symm same)]
      exact threaded.chains other
  intro other handle unended transaction found
  rw [absent (ne_of_mem_of_not_mem handle notHandle)]
  exact threaded.tips other handle (fun ended => unended (ended.concat _)) transaction found

theorem Threaded.handOut (threaded : Threaded state) {id : Nat}
    {record : LogRecord} (only : recordsOf state.log id = [record])
    (found : state.manager.transactions.lookup id = some transaction) :
    Threaded ({ state with handles := id :: state.handles }.setTransaction id
      { transaction with lastLsn := record.lsn }) := by
  have logged : recordsOf state.log id ≠ [] := by
    rw [only]
    exact List.cons_ne_nil _ _
  refine ⟨threaded.positive, threaded.below, ?_, ?_, threaded.distinct, ?_, ?_, threaded.chains, ?_⟩
  · intro other later present
    rcases AList.lookup_insert_cases present with ⟨rfl, rfl⟩ | ⟨_, present⟩
    · exact threaded.named other transaction found
    · exact threaded.named other later present
  · intro other unknown
    obtain ⟨empty, notStarting, unhandled⟩ := threaded.issued other unknown
    refine ⟨empty, notStarting, ?_⟩
    rintro (_ | ⟨_, mem⟩)
    · exact logged empty
    · exact unhandled mem
  · intro other waits
    obtain ⟨empty, unhandled⟩ := threaded.waiting other waits
    refine ⟨empty, ?_⟩
    rintro (_ | ⟨_, mem⟩)
    · exact logged empty
    · exact unhandled mem
  · rintro other (_ | ⟨_, mem⟩)
    · exact logged
    · exact threaded.begun other mem
  intro other handle unended later present
  rcases AList.lookup_insert_cases present with ⟨rfl, rfl⟩ | ⟨ne, present⟩
  · change record.lsn = BackwardChain.tip LogRecord.lsn LSN.invalid (recordsOf state.log other)
    rw [only]
    rfl
  · rcases List.mem_cons.mp handle with here | mem
    · exact absurd here ne
    · exact threaded.tips other mem unended later present

theorem Threaded.logBegin (threaded : Threaded state) (id : Nat)
    (io : FlushIO) : Threaded (state.logBegin id io) := by
  rw [LoggedHeap.logBegin]
  split_ifs with waits
  · dsimp only
    obtain ⟨wal, lsn, returned | ⟨failure, threw⟩⟩ :=
      { state with starting := state.starting.erase id }.append_cases
      { txnId := id, type := .txnBegin } io
    · rw [returned]
      have logged := threaded.beginRecord waits lsn
      dsimp only
      cases found : state.manager.transactions.lookup id with
      | none => exact logged
      | some transaction =>
        have only : recordsOf (state.log ++
            [({ lsn := state.wal.nextLsn, txnId := id,
                type := .txnBegin } : LogRecord)]) id =
              [{ lsn := state.wal.nextLsn, txnId := id,
                 type := .txnBegin }] := by
          rw [recordsOf_concat_self _ rfl, (threaded.waiting id waits).1]
          rfl
        exact logged.handOut only found
    rw [threw]
    refine ⟨?_, ?_, threaded.named, ?_, threaded.distinct.erase id, ?_,
      threaded.begun, threaded.chains, threaded.tips⟩
    · change 0 < wal.nextLsn
      rw [lsn]
      exact Nat.succ_pos _
    · intro record mem
      rw [lsn]
      exact (threaded.below record mem).trans (Nat.lt_succ_self _)
    · intro other unknown
      obtain ⟨empty, notStarting, unhandled⟩ := threaded.issued other unknown
      exact ⟨empty, fun mem => notStarting (List.mem_of_mem_erase mem), unhandled⟩
    · intro other mem
      exact threaded.waiting other (List.mem_of_mem_erase mem)
  · exact threaded

end Preservation

section WholeCalls

variable {state : LoggedHeap}

theorem append_of_ok {record : LogRecord} {io : FlushIO} {lsn : Nat}
    (returns : (state.wal.append record io).2 = .ok lsn) :
    state.append record io =
      ({ state with wal := (state.wal.append record io).1,
                    log := state.log ++ [{ record with lsn := lsn }] },
        .ok lsn) := by
  rw [append]
  generalize state.wal.append record io = result at returns ⊢
  obtain ⟨wal, outcome⟩ := result
  obtain rfl : outcome = .ok lsn := returns
  rfl

end WholeCalls

/-- Nothing is logged for a transaction after the record that ends it: heap
calls act for transactions that have not ended, and so do `commit` and `abort`
unless they reject the transaction. -/
def Unended (state : LoggedHeap) : LogStep → Prop
  | .register _ | .logBegin _ _ => True
  | .insert writer _ _ _ _ | .mark writer _ _ | .replace writer _ _ _ _
  | .erase writer _ _ => ¬ Ended state.log writer
  | .commit pointer _ _ | .logAbort pointer _ | .logEnd pointer _ _ => ∀ transaction,
      state.heldActive pointer = some transaction → ¬ Ended state.log transaction.id

theorem Threaded.step {state : LoggedHeap} (threaded : Threaded state)
    (supply : PageSupply) {event : LogStep} (unended : Unended state event) :
    Threaded (LoggedHeap.step supply state event) := by
  cases event with
  | register isoLevel => exact threaded.register isoLevel
  | logBegin id io => exact threaded.logBegin id io
  | insert writer layout record order io =>
    rw [LoggedHeap.step]
    apply threaded.write unended
    intro transaction lsn
    exact TableHeap.logsOnce_insert supply layout state.heap transaction record order lsn
  | mark writer id io | erase writer id io =>
    rw [LoggedHeap.step]
    apply threaded.write unended
    intro transaction lsn
    exact TableHeap.logsOnce_markDeleted (by decide) state.heap transaction id lsn
  | replace writer layout id record io =>
    rw [LoggedHeap.step]
    apply threaded.write unended
    intro transaction lsn
    exact TableHeap.logsOnce_replace layout state.heap transaction id record lsn
  | commit pointer appending flushing =>
    exact threaded.effect (threaded.commit_effect unended appending flushing)
  | logAbort pointer io =>
    exact threaded.effect (threaded.logAbort_effect unended io)
  | logEnd pointer appending flushing =>
    exact threaded.effect (threaded.logEnd_effect unended appending flushing)

/-- In every run in which no transaction logs anything after its `TxnCommit` or
`TxnEnd` record, the records of each transaction form one backward chain, in
every state on the way. -/
theorem log_records_chained (supply : PageSupply) (wal : WALManager)
    (valid : 0 < wal.nextLsn) (early late : List LogStep)
    (guarded : GuardedRuns.Along (step supply) Unended (initial supply wal)
      (early ++ late)) (id : Nat) : SingleChain (recordsOf (run supply wal early).log id) := by
  have threaded : Threaded (run supply wal early) := guarded.append.1.run_invariant (fun _ _
    threaded unended => threaded.step supply unended) (threaded_initial supply valid)
  exact threaded.chains id

def emptyLog : WALManager where
  segment :=
    { segmentId := 1, startLsn := 1, size := WALSegment.headerSize,
      isOpen := true, writeMode := true,
      pending := WALSegment.headerBytes 1 1 }
  directory := (∅ : WALDirectory).insert 1 []

example : WALManager.create ∅ .normal true = .ok emptyLog := rfl

open TransactionalHeap

theorem not_ended_of_type {log : List LogRecord} (others : ∀ record ∈ log, record.txnId = id →
      record.type ≠ .txnCommit ∧ record.type ≠ .txnEnd) : ¬ Ended log id := by
  rintro ⟨record, mem, own, commits | ends⟩
  · exact (others record mem own).1 commits
  · exact (others record mem own).2 ends

theorem unended_of_no_end {state : LoggedHeap} (event : LogStep) (noEnd : ∀ record ∈ state.log,
      record.type ≠ .txnCommit ∧ record.type ≠ .txnEnd) : Unended state event := by
  have open_all (id : Nat) : ¬ Ended state.log id :=
    not_ended_of_type fun record mem _ => noEnd record mem
  cases event with
  | register isoLevel | logBegin id io => trivial
  | insert writer layout record order io | mark writer id io | replace writer layout id record io
  | erase writer id io => exact open_all writer
  | commit pointer appending flushing | logAbort pointer io | logEnd pointer appending flushing =>
    exact fun _ _ => open_all _

/-- Two transactions begin out of order; one of them aborts, and then the other
one writes. -/
theorem log_records_chained_two :
    SingleChain (recordsOf (run onePage emptyLog
      [.register .readCommitted, .register .readCommitted, .logBegin 2 {},
        .logBegin 1 {}, .logAbort (some 2) {}, .logEnd (some 2) {} {},
        .insert 1 flagLayout flagRecord (DescendingSort.merge _) {}]).log 2) := by
  refine log_records_chained onePage emptyLog (by decide) [.register .readCommitted, .register
    .readCommitted, .logBegin 2 {}, .logBegin 1 {}, .logAbort (some 2) {}, .logEnd (some 2) {} {},
    .insert 1 flagLayout flagRecord (DescendingSort.merge _) {}] [] ?_ 2
  refine ⟨trivial, trivial, trivial, trivial, ?_, ?_, ?_, trivial⟩
  · exact unended_of_no_end _ (by decide +kernel)
  · exact unended_of_no_end _ (by decide +kernel)
  · exact not_ended_of_type (by decide +kernel)

/-- The flush in `commit` throws behind the `TxnCommit` record.  The
transaction is still active, and the record of `abort` links past it. -/
theorem log_flushFailed :
    (run onePage emptyLog
      [.register .readCommitted, .logBegin 1 {}, .commit (some 1) {} { write := .fails 0 },
        .logAbort (some 1) {}]).log =
      [{ lsn := 1, txnId := 1, type := .txnBegin },
        { lsn := 2, txnId := 1, prevLsn := 1, type := .txnCommit },
        { lsn := 3, txnId := 1, prevLsn := 1, type := .txnAbort }] := by decide +kernel

/-- The records of a transaction that has committed. -/
def committedSteps : List LogStep :=
  [.register .readCommitted, .logBegin 1 {}, .commit (some 1) {} {}]

def committedTransaction : Transaction :=
  { id := 1, state := .committed, lastLsn := 1 }

theorem held_committed :
    (run onePage emptyLog committedSteps).held (some 1) = some committedTransaction := by
  decide +kernel

section

variable {state : LoggedHeap} {writer : Nat} {transaction : Transaction}
  (found : state.held (some writer) = some transaction)
  {operation : Transaction → Option Nat → TableHeap.Call}

include found

theorem log_write {record : LogRecord}
    (logs : (operation transaction (some state.wal.nextLsn)).log = [record])
    (thrown : Transaction → TableHeap) {io : FlushIO}
    (returns : (state.wal.append record io).2 = .ok state.wal.nextLsn) :
    (state.write writer operation thrown io).log =
      state.log ++ [{ record with lsn := state.wal.nextLsn }] := by
  rw [write, found]
  dsimp only
  rw [logs]
  dsimp only
  rw [append_of_ok returns]
  rfl

theorem write_of_log_nil {heap : TableHeap} {after : Transaction}
    (quiet : operation transaction (some state.wal.nextLsn) =
      ⟨heap, after, []⟩) (thrown : Transaction → TableHeap) (io : FlushIO) :
    state.write writer operation thrown io =
      { state with heap := heap }.setTransaction writer after := by
  rw [write, found]
  dsimp only
  rw [quiet]

end

theorem held_setTransaction {state : LoggedHeap} (handle : id ∈ state.handles)
    (heap : TableHeap) (transaction : Transaction) :
    ({ state with heap := heap }.setTransaction id transaction).held
      (some id) = some transaction := by
  change (if id ∈ state.handles then (state.manager.transactions.insert id transaction).lookup id
    else none) = _
  rw [if_pos handle, AList.lookup_insert]

def erasure : LogRecord where
  lsn := 3
  txnId := 1
  prevLsn := 1
  type := .delete
  payload := ByteMemory.leBytes 4 1

/-- The transaction inserts a record into the first page and erases it. -/
theorem log_insert_erase {state : LoggedHeap}
    (found : state.held (some 1) = some committedTransaction)
    (empty : state.heap = TableHeap.create onePage)
    (next : state.wal.nextLsn = 3)
    (returns : (state.wal.append erasure {}).2 = .ok 3) :
    (GuardedRuns.run (step onePage) state
      [.insert 1 flagLayout flagRecord (DescendingSort.merge _) {},
        .erase 1 ⟨1, 0⟩ {}]).log = state.log ++ [erasure] := by
  obtain ⟨heap, inserted, added⟩ := HeapCall.insert_flagRecord committedTransaction (some 3)
  have first : step onePage state
      (.insert 1 flagLayout flagRecord (DescendingSort.merge _) {}) =
        { state with heap := heap }.setTransaction 1
          committedTransaction := by
    rw [step]
    apply write_of_log_nil found
    rw [next, empty, inserted]
  have markable : TableHeap.Markable heap 1 ⟨1, 0⟩ := by
    refine ⟨TableHeap.stampVersion flagBytes 1 {}, ?_, ?_, ?_⟩
    · rw [added.stored_eq, Function.update_self]
      rfl
    · rw [TableHeap.length_stampVersion]
      exact byteSize_le_flagBytes
    · rw [readMvcc_flagVersion]
      exact Or.inl rfl
  obtain ⟨call, _, erased, _⟩ := added.wellFormed.erase_of_markable
    committedTransaction ⟨1, 0⟩ (some 3) markable
  have logged := added.wellFormed.markDeleted_logged .delete committedTransaction ⟨1, 0⟩ 3
  rw [TableHeap.erase] at erased
  rw [erased] at logged
  obtain ⟨page, _, sameId, _, rfl⟩ := logged
  obtain ⟨id, handle, same, _⟩ := lookup_held found
  obtain rfl : 1 = id := Option.some.inj same
  have second := @log_write ({ state with heap := heap }.setTransaction 1 committedTransaction) 1
    committedTransaction (held_setTransaction handle heap _) (fun transaction lsn =>
      (TableHeap.erase heap transaction ⟨1, 0⟩ lsn).2) erasure ?_
    (fun transaction =>
      (TableHeap.erase heap transaction ⟨1, 0⟩ none).2.heap) {} ?_
  · rw [GuardedRuns.run, List.foldl_cons, List.foldl_cons, List.foldl_nil, first]
    refine second.trans ?_
    change state.log ++ [{ erasure with lsn := state.wal.nextLsn }] = _
    rw [next]
    rfl
  · change (TableHeap.markDeleted .delete heap committedTransaction ⟨1, 0⟩
      (some state.wal.nextLsn)).2.log = _
    rw [next, erased]
    change [{ erasure with payload := ByteMemory.leBytes 4 page.pageId }] = _
    rw [sameId]
    rfl
  · change (state.wal.append _ {}).2 = .ok state.wal.nextLsn
    rw [next]
    exact returns

theorem heap_committed :
    (run onePage emptyLog committedSteps).heap =
      TableHeap.create onePage := rfl

theorem log_erased :
    (run onePage emptyLog (committedSteps ++
      [.insert 1 flagLayout flagRecord (DescendingSort.merge _) {}, .erase 1 ⟨1, 0⟩ {}])).log =
      [{ lsn := 1, txnId := 1, type := .txnBegin },
        { lsn := 2, txnId := 1, prevLsn := 1, type := .txnCommit },
        erasure] := by
  have next : (run onePage emptyLog committedSteps).wal.nextLsn = 3 := by decide +kernel
  have returns :
      ((run onePage emptyLog committedSteps).wal.append erasure {}).2 = .ok 3 := by decide +kernel
  rw [run, GuardedRuns.run_append]
  refine (log_insert_erase held_committed heap_committed next returns).trans ?_
  rfl

/-- The chain breaks behind the `TxnCommit` record, which does not become the
last one of its transaction: the record of an `abort` after a failed flush
links past it, and so does the record of a heap call after the commit. -/
theorem commit_record_skipped :
    ¬ SingleChain (recordsOf (run onePage emptyLog
      [.register .readCommitted, .logBegin 1 {}, .commit (some 1) {} { write := .fails 0 },
        .logAbort (some 1) {}]).log 1) ∧
    ¬ SingleChain (recordsOf (run onePage emptyLog (committedSteps ++ [.insert 1 flagLayout
      flagRecord (DescendingSort.merge _) {}, .erase 1 ⟨1, 0⟩ {}])).log 1) := by
  rw [log_flushFailed, log_erased]
  constructor
  · intro chain
    exact absurd chain.chained.2.2.2.2.1 (by decide)
  · intro chain
    exact absurd chain.chained.2.2.2.2.1 (by decide)

end LoggedHeap

end KlyroDB
