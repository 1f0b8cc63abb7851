import KlyroDB.RecordIdentity

/-!
# The log records of table heap calls

`update` and `erase` log every page they change.  `insert` logs a page that it
has allocated, but neither the page that it links the new one to nor any page
that had room before.
-/

namespace KlyroDB

open ByteMemory

namespace TableHeap

def LoggedPage (call : Call) (writer pageId : Nat) : Prop :=
  ∃ record ∈ call.log, record.txnId = writer ∧ readNat record.payload 0 4 = pageId ∧ ∃ data,
    call.heap.pages pageId = some data ∧ (PageHeader.deserialize data).lsn = record.lsn

def ChangesLogged (heap : TableHeap) (writer : Nat) (call : Call) : Prop :=
  ∀ pageId, call.heap.pages pageId ≠ heap.pages pageId → LoggedPage call writer pageId

/-- The call has left an undo record for each of the versions it touched, and
log records for their pages and for all others that it changed. -/
structure Recorded (heap : TableHeap) (transaction : Transaction)
    (touched : List (UndoOperation × RecordID)) (call : Call) : Prop where
  undo : call.transaction.undoRecords = transaction.undoRecords ++
    touched.map fun entry => ⟨entry.1, 0, entry.2⟩
  versions : ∀ entry ∈ touched, LoggedPage call transaction.id entry.2.pageId
  changes : ChangesLogged heap transaction.id call

/-- A page number in a log record has four bytes. -/
theorem LoggedPage.pageId_lt {call : Call} {writer pageId : Nat}
    (logged : LoggedPage call writer pageId) : pageId < 2 ^ 32 := by
  obtain ⟨record, _, _, rfl, _⟩ := logged
  exact readNat_lt 0 4

section LogPage

variable {call : Call} {page : TablePage} {lsn : Nat}

def Call.changePage (call : Call) (type : LogRecordType) (page : TablePage) (lsn : Nat) : Call :=
  Call.logPage { call with heap := call.heap.putPage page } type page (some lsn)

theorem Call.pages_changePage (call : Call) (type : LogRecordType) (page : TablePage) (lsn : Nat) :
    (call.changePage type page lsn).heap.pages = Function.update call.heap.pages page.pageId
        (some (page.setLsn lsn).data) :=
  Function.update_idem ..

theorem readNat_payload (pageId : Nat) : readNat (leBytes 4 pageId) 0 4 = pageId % 2 ^ 32 := by
  have whole : slice (leBytes 4 pageId) 0 4 = leBytes 4 pageId := List.take_of_length_le (by simp)
  rw [readNat, whole, leNat_leBytes]
  rfl

theorem lsn_setLsn (page_wf : page.WellFormed) (small : lsn < 2 ^ 64) :
    (PageHeader.deserialize (page.setLsn lsn).data).lsn = lsn := by
  have size := page_wf.size_le
  rw [page_wf.setLsn_eq]
  dsimp only [PageHeader.deserialize]
  rw [readNat_writeNat lsn (by omega)]
  exact Nat.mod_eq_of_lt small

theorem loggedPage_changePage (page_wf : page.WellFormed)
    (type : LogRecordType) (small : lsn < 2 ^ 64) (short : page.pageId < 2 ^ 32) :
    LoggedPage (call.changePage type page lsn) call.transaction.id page.pageId := by
  refine ⟨_, List.mem_append_right _ (List.mem_singleton_self _), rfl, ?_,
    (page.setLsn lsn).data, ?_, lsn_setLsn page_wf small⟩
  · rw [readNat_payload, Nat.mod_eq_of_lt short]
  · rw [Call.pages_changePage, Function.update_self]

theorem LoggedPage.changePage {writer pageId : Nat}
    (logged : LoggedPage call writer pageId) (other : pageId ≠ page.pageId)
    (type : LogRecordType) (lsn : Nat) :
    LoggedPage (call.changePage type page lsn) writer pageId := by
  obtain ⟨record, mem, txn, named, data, there, stamped⟩ := logged
  refine ⟨record, List.mem_append_left _ mem, txn, named, data, ?_, stamped⟩
  rw [Call.pages_changePage, Function.update_of_ne other]
  exact there

theorem ChangesLogged.changePage {heap : TableHeap}
    (changes : ChangesLogged heap call.transaction.id call)
    (page_wf : page.WellFormed) (type : LogRecordType)
    (small : lsn < 2 ^ 64) (short : page.pageId < 2 ^ 32) :
    ChangesLogged heap call.transaction.id (call.changePage type page lsn) := by
  intro pageId changed
  by_cases here : pageId = page.pageId
  · rw [here]
    exact loggedPage_changePage page_wf type small short
  · rw [Call.pages_changePage, Function.update_of_ne here] at changed
    exact (changes pageId changed).changePage here type lsn

end LogPage

section Marking

variable {supply : PageSupply} {heap : TableHeap}

def MarkLogged (type : LogRecordType) (heap : TableHeap) (transaction : Transaction) (id : RecordID)
    (lsn : Nat) : Except HeapError Unit × Call → Prop
  | (.ok _, call) => ∃ page : TablePage, page.WellFormed ∧ page.pageId = id.pageId ∧ heap.pages
      id.pageId ≠ none ∧ call = (Call.changePage ⟨heap, transaction, []⟩ type page
      lsn).addUndoRecord .delete id
  | (.error _, call) => call = ⟨heap, transaction, []⟩

section

variable (wf : WellFormed supply heap) (type : LogRecordType) (transaction : Transaction)
  (id : RecordID)

include wf type transaction id

theorem WellFormed.markDeleted_logged (lsn : Nat) :
    MarkLogged type heap transaction id lsn
      (TableHeap.markDeleted type heap transaction id (some lsn)) := by
  have path := wf.markPath type transaction id (some lsn)
  generalize TableHeap.markDeleted type heap transaction id (some lsn) = result at path
  cases path with
  | refused free conflict => rfl
  | @marked page after bytes there here present size unclaimed after_wf afterId links map =>
    refine ⟨after, after_wf, afterId.trans here.symm, ?_, rfl⟩
    rw [here, there]
    exact Option.some_ne_none _

/-- A version that was marked is recorded, unless the number of its page is
too large for a log record. -/
theorem WellFormed.markDeleted_recorded_iff {lsn : Nat} (small : lsn < 2 ^ 64) :
    let result := TableHeap.markDeleted type heap transaction id (some lsn)
    match result.1 with
    | .ok _ => Recorded heap transaction [(.delete, id)] result.2 ↔ id.pageId < 2 ^ 32
    | .error _ => result.2 = ⟨heap, transaction, []⟩ := by
  have marked := wf.markDeleted_logged type transaction id lsn
  generalize TableHeap.markDeleted type heap transaction id (some lsn) = result at marked
  obtain ⟨outcome, call⟩ := result
  cases outcome with
  | error failure => exact marked
  | ok done =>
    obtain ⟨page, page_wf, sameId, _, rfl⟩ := marked
    constructor
    · intro recorded
      exact (recorded.versions (.delete, id) (by simp)).pageId_lt
    intro short
    rw [← sameId] at short
    refine ⟨rfl, ?_, ?_⟩
    · intro entry mem
      rw [List.mem_singleton.mp mem, ← sameId]
      exact @loggedPage_changePage ⟨heap, transaction, []⟩ page lsn page_wf type small short
    · have nothing : ChangesLogged heap transaction.id
          ⟨heap, transaction, []⟩ := fun pageId changed => by
        contradiction
      exact nothing.changePage page_wf type small short

theorem WellFormed.pages_markDeleted (lsn : Nat) {pageId : Nat}
    (known : (TableHeap.markDeleted type heap transaction id
      (some lsn)).2.heap.pages pageId ≠ none) : heap.pages pageId ≠ none := by
  have marked := wf.markDeleted_logged type transaction id lsn
  generalize TableHeap.markDeleted type heap transaction id (some lsn) = result at marked known
  obtain ⟨outcome, call⟩ := result
  cases outcome with
  | error failure =>
    obtain rfl : call = ⟨heap, transaction, []⟩ := marked
    exact known
  | ok done =>
    obtain ⟨page, _, sameId, there, rfl⟩ := marked
    by_cases here : pageId = page.pageId
    · rw [here, sameId]
      exact there
    intro missing
    apply known
    have other := congrFun (Call.pages_changePage ⟨heap, transaction, []⟩ type page lsn) pageId
    rw [Function.update_of_ne here] at other
    exact other.trans missing

end

/-- The search for room in `update` ends with a logged page that has got the
new version, or nothing has changed. -/
def SuccessorLogged (call : Call) (lsn : Nat) : Except HeapError Unit × Call → Prop
  | (.ok _, last) => ∃ page : TablePage, ∃ newId : RecordID, page.WellFormed ∧ page.pageId =
      newId.pageId ∧ call.heap.pages newId.pageId ≠ none ∧ last =
      (call.changePage .insert page lsn).addUndoRecord .insert newId
  | (.error _, last) => last = call

theorem WellFormed.successor_logged {call : Call}
    (wf : WellFormed supply call.heap) (bytes : List UInt8) (lsn : Nat) :
    SuccessorLogged call lsn (call.successor (some lsn)
        (TableHeap.findRoom none bytes call.heap)) := by
  have path := wf.successorPath bytes (some lsn)
  generalize call.successor (some lsn) (TableHeap.findRoom none bytes call.heap) = result at path
  cases path with
  | failed fails => rfl
  | @stored page after id there here free after_wf afterId links map =>
    refine ⟨after, id, after_wf, afterId.trans here.symm, ?_, rfl⟩
    rw [here, there]
    exact Option.some_ne_none _

/-- How a call of `update` is recorded: the old version and its successor, on
a page that was there before, or the old version alone if the call fails
behind the mark. -/
def UpdateRecorded (heap : TableHeap) (transaction : Transaction)
    (id : RecordID) : Except HeapError Unit × Call → Prop
  | (.ok _, call) => ∃ newId, heap.stored newId = none ∧ call.heap.stored newId ≠ none ∧ heap.pages
      newId.pageId ≠ none ∧ (Recorded heap transaction [(.delete, id), (.insert, newId)] call ↔
      id.pageId < 2 ^ 32 ∧ newId.pageId < 2 ^ 32)
  | (.error _, call) => id.pageId < 2 ^ 32 → ChangesLogged heap transaction.id call

theorem Recorded.successor {transaction : Transaction} {id newId : RecordID}
    {call : Call} (owner : call.transaction.id = transaction.id)
    (marked : Recorded heap transaction [(.delete, id)] call)
    {page : TablePage} (page_wf : page.WellFormed)
    (sameId : page.pageId = newId.pageId) {lsn : Nat} (small : lsn < 2 ^ 64)
    (short : newId.pageId < 2 ^ 32) :
    Recorded heap transaction [(.delete, id), (.insert, newId)]
      ((call.changePage .insert page lsn).addUndoRecord .insert newId) := by
  rw [← sameId] at short
  have logged : LoggedPage (call.changePage .insert page lsn) transaction.id page.pageId := by
    rw [← owner]
    exact loggedPage_changePage page_wf .insert small short
  refine ⟨?_, ?_, ?_⟩
  · change call.transaction.undoRecords ++ _ = _
    rw [marked.undo, List.append_assoc]
    rfl
  · intro entry mem
    rcases List.mem_cons.mp mem with rfl | mem
    · by_cases here : id.pageId = page.pageId
      · dsimp only
        rw [here]
        exact logged
      · exact (marked.versions (.delete, id) (by simp)).changePage here .insert lsn
    · rw [List.mem_singleton.mp mem, ← sameId]
      exact logged
  · have changes := marked.changes
    rw [← owner] at changes ⊢
    exact changes.changePage page_wf .insert small short

theorem WellFormed.update_recorded (wf : WellFormed supply heap)
    (layout : TupleLayout) (transaction : Transaction) (id : RecordID)
    (record : Record) {markLsn insertLsn : Nat} (smallMark : markLsn < 2 ^ 64)
    (smallInsert : insertLsn < 2 ^ 64) :
    UpdateRecorded heap transaction id
      (TableHeap.update layout heap transaction id record (some markLsn) (some insertLsn)) := by
  have created := @WellFormed.update_replacement _ _ wf layout transaction id
    record (some markLsn) (some insertLsn)
  have recorded := wf.markDeleted_recorded_iff .update transaction id smallMark
  have pages := @WellFormed.pages_markDeleted _ _ wf .update transaction id markLsn
  have mark := wf.markDeleted .update transaction id (some markLsn)
  rw [TableHeap.update] at created ⊢
  generalize TableHeap.markDeleted .update heap transaction id
    (some markLsn) = result at created recorded pages mark ⊢
  obtain ⟨outcome, call⟩ := result
  obtain ⟨owner, mark⟩ := mark
  cases outcome with
  | error failure =>
    obtain rfl : call = ⟨heap, transaction, []⟩ := recorded
    exact fun _ pageId changed => absurd rfl changed
  | ok done =>
    obtain ⟨bytes, marked⟩ := mark
    dsimp only [replaceMarked] at created recorded ⊢
    cases serialized : RecordSerializer.serialize record layout with
    | error failure => exact fun short => (recorded.mpr short).changes
    | ok newBytes =>
      rw [serialized] at created
      dsimp only [Call.replace] at created ⊢
      have second := marked.wellFormed.successor_logged
        (stampVersion newBytes call.transaction.id id) insertLsn
      generalize call.successor (some insertLsn) (TableHeap.findRoom none
        (stampVersion newBytes call.transaction.id id) call.heap) = result at created second ⊢
      obtain ⟨returned, last⟩ := result
      cases returned with
      | error failure =>
        obtain rfl : last = call := second
        exact fun short => (recorded.mpr short).changes
      | ok done =>
        obtain ⟨page, newId, page_wf, sameId, known, rfl⟩ := second
        obtain ⟨middle, old, new, first, _, added⟩ := @created newId
          (by simp [HeapCall.replacement, Call.addUndoRecord])
        refine ⟨newId, added.free_before first, ?_, pages known, ?_, ?_⟩
        · rw [added.stored_eq, Function.update_self]
          exact Option.some_ne_none _
        · intro all
          exact ⟨(all.versions (.delete, id) (by simp)).pageId_lt,
            (all.versions (.insert, newId) (by simp)).pageId_lt⟩
        · rintro ⟨short, shortNew⟩
          exact (recorded.mpr short).successor owner.id_eq page_wf sameId smallInsert shortNew

end Marking

section NewPages

variable {supply : PageSupply} {heap : TableHeap}

theorem Linked.last_page {current last : Nat} {chain : List Nat}
    (linked : Linked heap current chain) (ends : chain.getLast? = some last) :
    ∃ data, heap.pages last = some data ∧ TablePage.nextPageId ⟨last, data⟩ = PageID.invalid := by
  induction chain generalizing current with
  | nil => contradiction
  | cons pageId rest ih =>
    obtain ⟨_, data, there, further⟩ := linked
    cases rest with
    | nil =>
      obtain rfl : pageId = last := Option.some.inj ends
      exact ⟨data, there, further⟩
    | cons next rest =>
      exact ih further ends

/-- The link to a new page changes the page at the end of the chain. -/
theorem WellFormed.linkPage_changes (wf : WellFormed supply heap)
    {last pageId : Nat} {data oldData : List UInt8}
    (there : heap.pages last = some data) (small : pageId < PageID.invalid)
    (ended : TablePage.nextPageId ⟨last, oldData⟩ = PageID.invalid) :
    (heap.linkPage last pageId).pages last ≠ some oldData := by
  have valid : PageID.isValid last = true := by
    rw [PageID.isValid_iff]
    exact Nat.ne_of_lt (wf.pageId_lt there)
  have next := nextPageId_setNextPageId (wf.page last data there) small
  rw [TableHeap.linkPage, if_pos valid, fetchPage, there]
  intro same
  have written := pages_putPage heap (TablePage.setNextPageId ⟨last, data⟩ pageId)
  have linked : TablePage.nextPageId ⟨last, oldData⟩ = pageId := by
    rw [← Option.some.inj (written.symm.trans same)]
    exact next
  exact absurd (linked.symm.trans ended) (Nat.ne_of_lt small)

theorem WellFormed.newPage_not_recorded {origin : TableHeap}
    (wf : WellFormed supply heap) {source : TablePage}
    (supplied : supply.page heap.allocated = some source) {last : Nat}
    {data oldData : List UInt8} (there : heap.pages last = some data)
    (before : origin.pages last = some oldData)
    (ended : TablePage.nextPageId ⟨last, oldData⟩ = PageID.invalid)
    (transaction : Transaction) (bytes : List UInt8) (lsn : Nat)
    {id : RecordID} {call : Call}
    (done : Call.newPage ⟨{ heap with allocated := heap.allocated + 1 }, transaction, []⟩ last
      (some lsn) ((source.init.setPrevPageId last).insert bytes) = (.ok id, call)) :
    ¬ Recorded origin transaction [(.insert, id)] call := by
  have among := List.mem_of_getElem? supplied
  obtain ⟨page_wf, _, sameId, _⟩ := newPage_spec (supply.large source among) last
  have spec := page_wf.insert_spec bytes
  generalize (source.init.setPrevPageId last).insert bytes = result at spec done
  obtain ⟨outcome, after⟩ := result
  cases outcome with
  | error status => cases done
  | ok newId =>
    obtain ⟨here, _, after_wf, _, _, afterId⟩ := spec
    have afterSource : after.pageId = source.pageId := afterId.trans sameId
    have other : last ≠ after.pageId := by
      rintro rfl
      rw [afterSource, wf.fresh supplied] at there
      contradiction
    have added := wf.addPage supplied afterSource after_wf
    have stamped := (added.setLsn_kept (pages_putPage _ after) lsn).wellFormed
    cases done
    intro recorded
    have kept : ((({ heap with allocated := heap.allocated + 1 }.putPage after).putPage
        (after.setLsn lsn)).pages last) = some data := ((Function.update_of_ne other _ _).trans
        (Function.update_of_ne other _ _)).trans there
    have valid : after.pageId < PageID.invalid := afterSource ▸ supply.valid source among
    have changed := stamped.linkPage_changes kept valid ended
    obtain ⟨first, onlyFirst, _, named, _⟩ := recorded.versions (.insert, id) (by simp)
    obtain ⟨second, onlySecond, _, namedLast, _⟩ :=
      recorded.changes last (by rw [before]; exact changed)
    have onlyOne : second = first := (List.mem_singleton.mp onlySecond).trans
      (List.mem_singleton.mp onlyFirst).symm
    rw [onlyOne, named] at namedLast
    exact other (namedLast.symm.trans (here.trans afterId.symm))

theorem log_newPage_error {call after : Call} {last : Nat} {lsn : Option Nat}
    {result : Except Status RecordID × TablePage} {failure : HeapError}
    (done : call.newPage last lsn result = (.error failure, after)) : after.log = call.log := by
  obtain ⟨outcome, page⟩ := result
  cases outcome with
  | ok id => cases done
  | error status =>
    cases done
    rfl

/-- How a call of `insert` ends: a page that it has changed is missing in the
log, or it has failed and logged nothing. -/
def InsertUnrecorded (heap : TableHeap) (transaction : Transaction) :
    Except HeapError RecordID × Call → Prop
  | (.ok id, call) => ¬ Recorded heap transaction [(.insert, id)] call
  | (.error _, call) => call.log = []

theorem not_recorded_of_log_nil {transaction : Transaction} {id : RecordID}
    {call : Call} (nothing : call.log = []) : ¬ Recorded heap transaction [(.insert, id)] call := by
  intro recorded
  obtain ⟨record, mem, _⟩ := recorded.versions (.insert, id) (by simp)
  rw [nothing] at mem
  contradiction

theorem WellFormed.insert_unrecorded (wf : WellFormed supply heap)
    (first : heap.firstPageId ≠ PageID.invalid) (layout : TupleLayout)
    (transaction : Transaction) (record : Record)
    (order : DescendingSort TablePage.SlotRef.offset) (lsn : Nat) :
    InsertUnrecorded heap transaction (TableHeap.insert supply layout heap transaction record order
        (some lsn)) := by
  rw [TableHeap.insert]
  cases serialized : RecordSerializer.serialize record layout with
  | error failure => rfl
  | ok bytes =>
    obtain ⟨chain, linked, distinct, short⟩ := wf.chain
    rw [TableHeap.insertBytes]
    generalize stampVersion bytes transaction.id {} = version
    have found := wf.findRoom (some order) version linked short
    generalize TableHeap.findRoom (some order) version heap = result at found ⊢
    obtain ⟨outcome, after⟩ := result
    cases outcome with
    | inserted id => exact not_recorded_of_log_nil rfl
    | failed status => exact found.elim
    | full last =>
      obtain ⟨same, whole, lastEq⟩ := found
      cases ends : chain.getLast? with
      | none =>
        rw [List.getLast?_eq_none_iff.mp ends] at linked
        exact absurd linked first
      | some final =>
        rw [ends, Option.getD_some] at lastEq
        subst lastEq
        obtain ⟨oldData, before, ended⟩ := linked.last_page ends
        obtain ⟨data, there, _⟩ := whole.last_page ends
        dsimp only [Call.extendChain]
        rw [allocatePage]
        cases supplied : supply.page after.allocated with
        | none => rfl
        | some source =>
          dsimp only
          generalize answer : Call.newPage _ last (some lsn) _ = result
          obtain ⟨returned, call⟩ := result
          cases returned with
          | ok id =>
            exact same.wellFormed.newPage_not_recorded supplied there
              before ended transaction version lsn answer
          | error failure =>
            exact log_newPage_error answer

end NewPages

section FirstPage

variable {supply : PageSupply} {heap : TableHeap}

theorem Call.firstPageId_logPage (call : Call) (type : LogRecordType)
    (page : TablePage) (lsn : Option Nat) :
    (call.logPage type page lsn).heap.firstPageId = call.heap.firstPageId :=
  (call.sameShape_logPage type page lsn).first_eq

theorem firstPageId_linkPage (heap : TableHeap) (last pageId : Nat) :
    (heap.linkPage last pageId).firstPageId = heap.firstPageId := by
  rw [linkPage]
  split_ifs with valid
  · cases heap.fetchPage last with
    | error status | ok page => rfl
  · rfl

theorem Call.firstPageId_newPage (call : Call) (last : Nat)
    (lsn : Option Nat) (result : Except Status RecordID × TablePage) :
    (call.newPage last lsn result).2.heap.firstPageId = call.heap.firstPageId := by
  obtain ⟨outcome, page⟩ := result
  cases outcome with
  | error status => rfl
  | ok id =>
    dsimp only [Call.newPage]
    rw [firstPageId_linkPage]
    exact Call.firstPageId_logPage _ .insert page lsn

theorem WellFormed.firstPageId_insert (wf : WellFormed supply heap)
    (layout : TupleLayout) (transaction : Transaction) (record : Record)
    (order : DescendingSort TablePage.SlotRef.offset) (lsn : Option Nat) :
    (TableHeap.insert supply layout heap transaction record order
      lsn).2.heap.firstPageId = heap.firstPageId := by
  rw [TableHeap.insert]
  cases serialized : RecordSerializer.serialize record layout with
  | error failure => rfl
  | ok bytes =>
    obtain ⟨chain, linked, _, short⟩ := wf.chain
    rw [TableHeap.insertBytes]
    generalize stampVersion bytes transaction.id {} = version
    have found := wf.findRoom (some order) version linked short
    generalize TableHeap.findRoom (some order) version heap = result at found ⊢
    obtain ⟨outcome, after⟩ := result
    cases outcome with
    | inserted id => exact Inserted.shape found |>.first_eq
    | failed status => exact found.elim
    | full last =>
      have kept : after.firstPageId = heap.firstPageId := found.1.shape.first_eq
      dsimp only [Call.extendChain]
      rw [allocatePage]
      cases supplied : supply.page after.allocated with
      | none => exact kept
      | some source => exact (Call.firstPageId_newPage _ last lsn _).trans kept

theorem WellFormed.firstPageId_markDeleted (wf : WellFormed supply heap) (type : LogRecordType)
    (transaction : Transaction) (id : RecordID) (lsn : Option Nat) :
    (TableHeap.markDeleted type heap transaction id lsn).2.heap.firstPageId = heap.firstPageId := by
  have path := wf.markPath type transaction id lsn
  generalize TableHeap.markDeleted type heap transaction id lsn = result at path
  cases path with
  | refused free conflict => rfl
  | marked => exact Call.firstPageId_logPage _ type _ lsn

theorem WellFormed.firstPageId_successor {call : Call}
    (wf : WellFormed supply call.heap) (bytes : List UInt8) (lsn : Option Nat) :
    (call.successor lsn (TableHeap.findRoom none bytes
      call.heap)).2.heap.firstPageId = call.heap.firstPageId := by
  have path := wf.successorPath bytes lsn
  generalize call.successor lsn (TableHeap.findRoom none bytes call.heap) = result at path
  cases path with
  | failed fails => rfl
  | stored => exact Call.firstPageId_logPage _ .insert _ lsn

theorem WellFormed.firstPageId_update (wf : WellFormed supply heap)
    (layout : TupleLayout) (transaction : Transaction) (id : RecordID)
    (record : Record) (markLsn insertLsn : Option Nat) :
    (TableHeap.update layout heap transaction id record markLsn
      insertLsn).2.heap.firstPageId = heap.firstPageId := by
  have first := wf.firstPageId_markDeleted .update transaction id markLsn
  have mark := wf.markDeleted .update transaction id markLsn
  rw [TableHeap.update]
  generalize TableHeap.markDeleted .update heap transaction id markLsn = result at first mark ⊢
  obtain ⟨outcome, call⟩ := result
  cases outcome with
  | error failure => exact first
  | ok done =>
    obtain ⟨_, bytes, marked⟩ := mark
    dsimp only [replaceMarked]
    cases RecordSerializer.serialize record layout with
    | error failure => exact first
    | ok newBytes => exact (marked.wellFormed.firstPageId_successor _ insertLsn).trans first

end FirstPage

end TableHeap

namespace HeapCall

open TableHeap

section

variable {supply : PageSupply} {heap : TableHeap} (wf : WellFormed supply heap) (call : HeapCall)

include wf call

theorem wellFormed_apply : WellFormed supply (call.apply supply heap) := by
  cases call with
  | insert transaction layout record order lsn =>
    rcases (wf.insert layout transaction record order lsn).2 with
      kept | ⟨id, bytes, _, added⟩
    · exact kept.wellFormed
    · exact added.wellFormed
  | update transaction layout id record markLsn insertLsn =>
    cases (wf.update layout transaction id record markLsn insertLsn).2.2 with
    | kept same => exact same.wellFormed
    | marked bytes first => exact first.wellFormed
    | replaced middle bytes newBytes newId first serialized second =>
      exact second.wellFormed
  | erase transaction id lsn =>
    have outcome := (wf.markDeleted .delete transaction id lsn).2
    dsimp only [apply]
    rw [TableHeap.erase]
    generalize TableHeap.markDeleted .delete heap transaction id lsn = result at outcome ⊢
    obtain ⟨returned, call⟩ := result
    cases returned with
    | error failure => exact outcome.1.wellFormed
    | ok done =>
      obtain ⟨bytes, marked⟩ := outcome
      exact marked.wellFormed

theorem firstPageId_apply : (call.apply supply heap).firstPageId = heap.firstPageId := by
  cases call with
  | insert transaction layout record order lsn =>
    exact wf.firstPageId_insert layout transaction record order lsn
  | update transaction layout id record markLsn insertLsn =>
    exact wf.firstPageId_update layout transaction id record markLsn insertLsn
  | erase transaction id lsn =>
    exact wf.firstPageId_markDeleted .delete transaction id lsn

end

theorem wellFormed_run (supply : PageSupply) (calls : List HeapCall) :
    WellFormed supply (run supply calls) ∧
      (run supply calls).firstPageId = supply.first.pageId := by
  induction calls using List.reverseRecOn with
  | nil => exact ⟨(create_wellFormed supply).1, rfl⟩
  | append_singleton calls call ih =>
    rw [run_append]
    exact ⟨wellFormed_apply ih.1 call, (firstPageId_apply ih.1 call).trans ih.2⟩

/-- A call with a log, after any calls on the heap.  An erased version is
recorded exactly if its page has a number of at most four bytes, an updated
one if the page of its successor has one as well; what these calls change
before they fail is logged.  A call of `insert` that succeeds is never fully
recorded, and one that fails logs nothing. -/
theorem changes_recorded_iff (supply : PageSupply) (before : List HeapCall)
    (transaction : Transaction) (lsn insertLsn : Nat)
    (small : lsn < 2 ^ 64) (smallInsert : insertLsn < 2 ^ 64) :
    let heap := run supply before
    (∀ id, match TableHeap.erase heap transaction id (some lsn) with
      | (.ok _, call) => Recorded heap transaction [(.delete, id)] call ↔ id.pageId < 2 ^ 32
      | (.error _, call) => call.heap = heap) ∧
    (∀ layout id record, UpdateRecorded heap transaction id (TableHeap.update layout heap
      transaction id record (some lsn) (some insertLsn))) ∧
    ∀ layout record order, InsertUnrecorded heap transaction (TableHeap.insert supply layout heap
      transaction record order (some insertLsn)) := by
  intro heap
  obtain ⟨wf, first⟩ := wellFormed_run supply before
  refine ⟨?_, ?_, ?_⟩
  · intro id
    have marked := wf.markDeleted_recorded_iff .delete transaction id small
    rw [TableHeap.erase]
    generalize TableHeap.markDeleted .delete heap transaction id (some lsn) = result at marked ⊢
    obtain ⟨outcome, call⟩ := result
    cases outcome with
    | ok done => exact marked
    | error failure =>
      obtain rfl : call = ⟨heap, transaction, []⟩ := marked
      rfl
  · intro layout id record
    exact wf.update_recorded layout transaction id record small smallInsert
  · intro layout record order
    refine wf.insert_unrecorded ?_ layout transaction record order insertLsn
    rw [first]
    exact Nat.ne_of_lt (supply.valid supply.first (List.mem_cons_self ..))

theorem run_singleton (supply : PageSupply) (call : HeapCall) :
    run supply [call] = call.apply supply (create supply) := rfl

open TransactionalHeap in
/-- The first record of a table goes to a page that is there: that page
changes, and neither the log nor the undo records of the transaction do. -/
theorem insert_not_recorded :
    ∃ call, TableHeap.insert onePage flagLayout (run onePage []) { id := 1 }
        flagRecord (DescendingSort.merge _) (some 1) = (.ok ⟨1, 0⟩, call) ∧
      call.heap.pages 1 ≠ (run onePage []).pages 1 ∧ call.log = [] ∧
      call.transaction.undoRecords = [] ∧
      ¬ Recorded (run onePage []) { id := 1 } [(.insert, ⟨1, 0⟩)] call := by
  obtain ⟨heap, inserted, added⟩ := insert_flagRecord { id := 1 } (some 1)
  refine ⟨⟨heap, { id := 1 }, []⟩, inserted, ?_, rfl, rfl, not_recorded_of_log_nil rfl⟩
  have start : run onePage [] = create onePage := rfl
  rw [start]
  intro same
  have stored : heap.stored ⟨1, 0⟩ = (create onePage).stored ⟨1, 0⟩ := by
    rw [TableHeap.stored, TableHeap.stored, same]
  rw [added.stored_eq, Function.update_self, added.free] at stored
  exact Option.some_ne_none _ stored

open TransactionalHeap in
/-- The record is erased by another transaction. -/
theorem changes_recorded_erased :
    ∃ heap call, run onePage [.insert { id := 1 } flagLayout flagRecord
        (DescendingSort.merge _) (some 1)] = heap ∧
      TableHeap.erase heap { id := 2 } ⟨1, 0⟩ (some 2) = (.ok (), call) ∧
      Recorded heap { id := 2 } [(.delete, ⟨1, 0⟩)] call := by
  obtain ⟨heap, inserted, added⟩ := insert_flagRecord { id := 1 } (some 1)
  have ran : run onePage [.insert { id := 1 } flagLayout flagRecord
      (DescendingSort.merge _) (some 1)] = heap := by rw [run_singleton, apply, inserted]
  have markable : Markable heap 2 ⟨1, 0⟩ := by
    refine ⟨stampVersion flagBytes 1 {}, ?_, ?_, ?_⟩
    · rw [added.stored_eq, Function.update_self]
    · rw [length_stampVersion]
      exact byteSize_le_flagBytes
    · rw [readMvcc_flagVersion]
      exact Or.inl rfl
  obtain ⟨call, bytes, erased, _⟩ := added.wellFormed.erase_of_markable
    { id := 2 } ⟨1, 0⟩ (some 2) markable
  have recorded := changes_recorded_iff onePage
    [.insert { id := 1 } flagLayout flagRecord (DescendingSort.merge _) (some 1)] { id := 2 } 2 3
    (by decide) (by decide)
  rw [ran] at recorded
  replace recorded := recorded.1 ⟨1, 0⟩
  rw [erased] at recorded
  exact ⟨heap, call, ran, erased, recorded.mpr (by decide)⟩

end HeapCall

end KlyroDB
