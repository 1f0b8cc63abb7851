import KlyroDB.TableHeapContents

/-!
# The operations of a table heap

Each call adds a version under a fresh identifier, rewrites the deleter of a
version in place, or does both.
-/

namespace KlyroDB

open RecordHeader (byteSize readMvcc writeXmax)
open Function (update_of_ne update_self)
open ByteMemory

theorem PageSupply.index_eq (supply : PageSupply) {first second : Nat}
    {page other : TablePage} (here : supply.page first = some page)
    (there : supply.page second = some other)
    (same : page.pageId = other.pageId) : first = second := by
  have inside : first < (supply.first :: supply.rest).length :=
    (List.getElem?_eq_some_iff.mp here).1
  refine (List.getElem?_inj (by simpa using inside) supply.distinct).mp ?_
  rw [PageSupply.page] at here there
  rw [List.getElem?_map, List.getElem?_map, here, there, Option.map_some, Option.map_some, same]

namespace TableHeap

structure Kept (supply : PageSupply) (heap after : TableHeap) : Prop where
  wellFormed : WellFormed supply after
  stored_eq : after.stored = heap.stored

structure Added (supply : PageSupply) (heap : TableHeap) (bytes : List UInt8)
    (id : RecordID) (after : TableHeap) : Prop where
  wellFormed : WellFormed supply after
  free : heap.stored id = none
  stored_eq : after.stored = Function.update heap.stored id (some bytes)

theorem Added.kept {supply : PageSupply} {heap after later : TableHeap}
    {bytes : List UInt8} {id : RecordID} (added : Added supply heap bytes id after)
    (kept : Kept supply after later) : Added supply heap bytes id later :=
  ⟨kept.wellFormed, added.free, kept.stored_eq.trans added.stored_eq⟩

structure SameOwner (transaction after : Transaction) : Prop where
  id_eq : after.id = transaction.id
  state_eq : after.state = transaction.state

section Calls

variable {supply : PageSupply} {heap : TableHeap}

theorem Kept.refl (wf : WellFormed supply heap) : Kept supply heap heap :=
  ⟨wf, rfl⟩

variable {page source : TablePage} {current pageId writer : Nat}
  {chain : List Nat} {id : RecordID} {bytes : List UInt8}

theorem WellFormed.setLsn_kept (wf : WellFormed supply heap)
    (present : heap.pages page.pageId = some page.data) (lsn : Nat) :
    Kept supply heap (heap.putPage (page.setLsn lsn)) := by
  have page_wf := wf.page page.pageId page.data present
  obtain ⟨wellFormed, map, next⟩ := page_wf.setLsn lsn
  exact ⟨wf.putPage present rfl next wellFormed, stored_putPage_same present rfl map⟩

theorem Call.logPage_spec {call : Call} (wf : WellFormed supply call.heap) {page : TablePage}
    (present : call.heap.pages page.pageId = some page.data)
    (type : LogRecordType) (lsn : Option Nat) :
    Kept supply call.heap (call.logPage type page lsn).heap ∧
      SameOwner call.transaction (call.logPage type page lsn).transaction := by
  cases lsn with
  | none => exact ⟨Kept.refl wf, rfl, rfl⟩
  | some lsn => exact ⟨wf.setLsn_kept present lsn, rfl, rfl⟩

theorem Call.sameShape_logPage (call : Call) (type : LogRecordType)
    (page : TablePage) (lsn : Option Nat) :
    SameShape call.heap (call.logPage type page lsn).heap := by
  cases lsn with
  | none => exact SameShape.refl _
  | some lsn => exact sameShape_putPage _ _

theorem pages_putPage (heap : TableHeap) (page : TablePage) :
    (heap.putPage page).pages page.pageId = some page.data :=
  update_self ..

theorem WellFormed.fresh (wf : WellFormed supply heap)
    (supplied : supply.page heap.allocated = some page) : heap.pages page.pageId = none := by
  cases there : heap.pages page.pageId with
  | none => rfl
  | some data =>
    obtain ⟨index, below, other, earlier, same⟩ := wf.known _ data there
    have equal := supply.index_eq earlier supplied same
    omega

theorem Linked.addPage (fresh : heap.pages page.pageId = none)
    (linked : Linked heap current chain) (count : Nat) :
    Linked ({ heap with allocated := count }.putPage page) current chain := by
  induction chain generalizing current with
  | nil => exact linked
  | cons pageId rest ih =>
    obtain ⟨here, data, there, further⟩ := linked
    refine ⟨here, data, ?_, ih further⟩
    have other : pageId ≠ page.pageId := by
      rintro rfl
      rw [fresh] at there
      contradiction
    exact (update_of_ne other _ _).trans there

theorem WellFormed.addPage (wf : WellFormed supply heap)
    (supplied : supply.page heap.allocated = some source)
    (sameId : page.pageId = source.pageId) (wellFormed : page.WellFormed) :
    WellFormed supply ({ heap with allocated := heap.allocated + 1 }.putPage page) := by
  have fresh : heap.pages page.pageId = none := by
    rw [sameId]
    exact wf.fresh supplied
  constructor
  case page =>
    intro pageId data there
    by_cases same : pageId = page.pageId
    · subst same
      rw [pages_putPage] at there
      cases there
      exact wellFormed
    · exact wf.page pageId data ((update_of_ne same _ _).symm.trans there)
  case known =>
    intro pageId data there
    by_cases same : pageId = page.pageId
    · exact ⟨heap.allocated, Nat.lt_succ_self _, source, supplied, by rw [same, sameId]⟩
    · obtain ⟨index, below, found⟩ := wf.known pageId data
        ((update_of_ne same _ _).symm.trans there)
      exact ⟨index, Nat.lt_succ_of_lt below, found⟩
  case chain =>
    obtain ⟨chain, linked, distinct, short⟩ := wf.chain
    exact ⟨chain, linked.addPage fresh _, distinct, Nat.le_succ_of_le short⟩

theorem stored_addPage (page : TablePage) (count : Nat) (id : RecordID) :
    ({ heap with allocated := count }.putPage page).stored id =
      if id.pageId = page.pageId then page.contents id.slotId
      else heap.stored id := by
  rw [stored_putPage]
  rfl

theorem stored_of_fresh (fresh : heap.pages pageId = none)
    (here : id.pageId = pageId) : heap.stored id = none := by
  rw [stored, here, fresh]
  rfl

theorem nextPageId_setNextPageId (wellFormed : page.WellFormed) (valid : pageId < PageID.invalid) :
    (page.setNextPageId pageId).nextPageId = pageId := by
  have size := wellFormed.size_le
  rw [PageID.invalid] at valid
  rw [TablePage.nextPageId, TablePage.setNextPageId]
  rw [readNat_writeNat _ (by omega), Nat.mod_eq_of_lt (by omega)]

theorem Linked.snoc {last : TablePage} {data : List UInt8}
    (linked : Linked heap current chain) (distinct : chain.Nodup)
    (ends : chain.getLast? = some last.pageId)
    (next : (last.setNextPageId pageId).nextPageId = pageId)
    (outside : pageId ∉ chain) (there : heap.pages pageId = some data)
    (final : TablePage.nextPageId ⟨pageId, data⟩ = PageID.invalid) :
    Linked (heap.putPage (last.setNextPageId pageId)) current (chain ++ [pageId]) := by
  induction chain generalizing current with
  | nil => contradiction
  | cons first rest ih =>
    obtain ⟨here, firstData, firstThere, further⟩ := linked
    obtain ⟨firstNew, restDistinct⟩ := List.nodup_cons.mp distinct
    refine ⟨here, ?_⟩
    cases rest with
    | nil =>
      have same : first = last.pageId := by simpa using ends
      subst same
      refine ⟨(last.setNextPageId pageId).data, pages_putPage heap (last.setNextPageId pageId), ?_⟩
      refine ⟨next, data, ?_, final⟩
      have other : pageId ≠ last.pageId := by
        rintro rfl
        exact outside (List.mem_cons_self ..)
      exact (update_of_ne other _ _).trans there
    | cons second others =>
      have restEnds : (second :: others).getLast? = some last.pageId := by
        rw [← ends, List.getLast?_cons_cons]
      have other : first ≠ last.pageId := by
        rintro rfl
        exact firstNew (List.mem_of_getLast? restEnds)
      refine ⟨firstData, (update_of_ne other _ _).trans firstThere,
        ih further restDistinct restEnds ?_⟩
      exact fun mem => outside (List.mem_cons_of_mem _ mem)

theorem Linked.mem_pages (linked : Linked heap current chain)
    (mem : pageId ∈ chain) : ∃ data, heap.pages pageId = some data := by
  induction chain generalizing current with
  | nil => contradiction
  | cons first rest ih =>
    obtain ⟨_, data, there, further⟩ := linked
    rcases List.mem_cons.mp mem with rfl | later
    · exact ⟨data, there⟩
    · exact ih further later

theorem WellFormed.linkPage (wf : WellFormed supply heap)
    (linked : Linked heap heap.firstPageId chain) (distinct : chain.Nodup)
    (short : chain.length < heap.allocated) {data : List UInt8}
    (outside : pageId ∉ chain) (there : heap.pages pageId = some data)
    (final : TablePage.nextPageId ⟨pageId, data⟩ = PageID.invalid) :
    Kept supply heap (heap.linkPage (chain.getLast?.getD PageID.invalid) pageId) := by
  rw [TableHeap.linkPage]
  cases ends : chain.getLast? with
  | none =>
    have invalid : ¬ PageID.isValid PageID.invalid = true := by
      rw [PageID.isValid_iff]
      exact not_not_intro rfl
    exact Kept.refl wf
  | some last =>
    obtain ⟨lastData, present⟩ := linked.mem_pages (List.mem_of_getLast? ends)
    have last_wf := wf.page last lastData present
    have next := nextPageId_setNextPageId last_wf (wf.pageId_lt there)
    have records := TablePage.sameRecords_setNextPageId ⟨last, lastData⟩ pageId
    obtain ⟨wellFormed, map⟩ := last_wf.sameRecords records
    have kept : Kept supply heap (heap.putPage
        (TablePage.setNextPageId ⟨last, lastData⟩ pageId)) := by
      refine ⟨@WellFormed.relink supply heap wf ⟨last, lastData⟩ _ present rfl wellFormed ?_,
        @stored_putPage_same heap ⟨last, lastData⟩ _ present rfl map⟩
      refine ⟨chain ++ [pageId], linked.snoc distinct ends next outside there final, ?_, ?_⟩
      · exact List.nodup_append.mpr ⟨distinct, List.nodup_singleton _, by
          intro first mem second single
          rw [List.mem_singleton.mp single]
          rintro rfl
          exact outside mem⟩
      · rw [List.length_append]
        exact short
    rw [Option.getD_some, fetchPage, present]
    split_ifs with valid
    · exact kept
    · exact Kept.refl wf

theorem nextPageId_init (large : 72 ≤ page.limit) : page.init.nextPageId = PageID.invalid := by
  obtain ⟨wellFormed, _, length⟩ := TablePage.init_wellFormed large
  have size := wellFormed.size_le
  have data : page.init.nextPageId = readNat (writeNat page.data 36 8 PageID.invalid) 36 8 := by
    simp only [TablePage.init, TablePage.nextPageId, TablePage.setLiveRecordCount,
      TablePage.setFreeSpaceUpperBound, TablePage.setFreeSpaceLowerBound, TablePage.setSlotCount,
      TablePage.setPrevPageId, TablePage.setNextPageId]
    simp (disch := omega) only [readNat_writeNat_of_disjoint]
  rw [data, readNat_writeNat _ (by omega), PageID.invalid, Nat.mod_eq_of_lt (by omega)]

theorem newPage_spec (large : 72 ≤ source.limit) (last : Nat) :
    let page := source.init.setPrevPageId last
    page.WellFormed ∧ page.contents = (fun _ => none) ∧
      page.pageId = source.pageId ∧ page.nextPageId = PageID.invalid := by
  obtain ⟨wellFormed, empty, _⟩ := TablePage.init_wellFormed large
  obtain ⟨prev_wf, map⟩ := wellFormed.sameRecords (TablePage.sameRecords_setPrevPageId _ last)
  refine ⟨prev_wf, map.trans empty, rfl, ?_⟩
  rw [← nextPageId_init large]
  exact readNat_writeNat_of_disjoint _ (by omega)

def InsertOutcome (supply : PageSupply) (heap : TableHeap) (transaction : Transaction)
    (bytes : List UInt8) (result : Except HeapError RecordID × Call) : Prop :=
  SameOwner transaction result.2.transaction ∧
    match result.1 with
    | .ok id => Added supply heap bytes id result.2.heap
    | .error _ => Kept supply heap result.2.heap

theorem Unchanged.insertOutcome {middle : TableHeap} {txn : Transaction}
    (same : Unchanged supply heap middle) {result : Except HeapError RecordID × Call}
    (done : InsertOutcome supply middle txn bytes result) :
    InsertOutcome supply heap txn bytes result := by
  obtain ⟨outcome, call⟩ := result
  obtain ⟨owner, done⟩ := done
  refine ⟨owner, ?_⟩
  cases outcome with
  | ok id => exact ⟨done.wellFormed, same.stored_eq ▸ done.free, same.stored_eq ▸ done.stored_eq⟩
  | error failure =>
    exact ⟨done.wellFormed, done.stored_eq.trans same.stored_eq⟩

theorem WellFormed.newPage (wf : WellFormed supply heap)
    (supplied : supply.page heap.allocated = some source)
    (linked : Linked heap heap.firstPageId chain) (distinct : chain.Nodup)
    (short : chain.length ≤ heap.allocated) (txn : Transaction)
    (bytes : List UInt8) (lsn : Option Nat) :
    let last := chain.getLast?.getD PageID.invalid
    let page := source.init.setPrevPageId last
    InsertOutcome supply heap txn bytes
      (Call.newPage ⟨{ heap with allocated := heap.allocated + 1 }, txn, []⟩ last lsn
        (page.insert bytes)) := by
  intro last page
  have large := supply.large source (List.mem_of_getElem? supplied)
  obtain ⟨page_wf, empty, sameId, next⟩ := newPage_spec large last
  have fresh : heap.pages page.pageId = none := by
    rw [sameId]
    exact wf.fresh supplied
  have spec := page_wf.insert_spec bytes
  have links := (page_wf.sameLinks_insert bytes).nextPageId_eq
  generalize page.insert bytes = result at spec links ⊢
  obtain ⟨outcome, after⟩ := result
  cases outcome with
  | error status =>
    have same : after = page := spec
    subst same
    refine ⟨⟨rfl, rfl⟩, wf.addPage supplied sameId page_wf, ?_⟩
    funext id
    dsimp only [Call.newPage]
    rw [stored_addPage, empty]
    split_ifs with here
    · exact (stored_of_fresh fresh here).symm
    · rfl
  | ok id =>
    obtain ⟨here, _, after_wf, map, _, afterId⟩ := spec
    have fresh_after : heap.pages after.pageId = none := by
      rw [afterId]
      exact fresh
    have added : Added supply heap bytes id
        ({ heap with allocated := heap.allocated + 1 }.putPage after) := by
      refine ⟨wf.addPage supplied (afterId.trans sameId) after_wf, stored_of_fresh fresh here, ?_⟩
      funext other
      rw [stored_addPage, map, empty, afterId, ← here]
      by_cases target : other = id
      · rw [target, if_pos rfl, update_self, update_self]
      rw [update_of_ne target]
      split_ifs with onPage
      · rw [update_of_ne, stored_of_fresh fresh (onPage.trans here)]
        intro sameSlot
        exact target (by cases other; cases id; simp_all)
      · rfl
    have present := pages_putPage { heap with allocated := heap.allocated + 1 } after
    have logged := @Call.logPage_spec supply ⟨_, txn, []⟩ added.wellFormed after present .insert lsn
    have outside : after.pageId ∉ chain := by
      intro mem
      obtain ⟨data, there⟩ := linked.mem_pages mem
      rw [fresh_after] at there
      contradiction
    have afterNext : after.nextPageId = PageID.invalid := links.trans next
    have chained := linked.addPage fresh_after (heap.allocated + 1)
    refine ⟨⟨logged.2.id_eq, logged.2.state_eq⟩, (added.kept logged.1).kept ?_⟩
    cases lsn with
    | none =>
      exact logged.1.wellFormed.linkPage chained distinct
        (Nat.lt_succ_of_le short) outside present afterNext
    | some lsn =>
      have stamped := (after_wf.setLsn lsn).2.2
      have restamped := @Linked.putPage _ after (after.setLsn lsn) present rfl stamped _ _ chained
      exact logged.1.wellFormed.linkPage restamped distinct (Nat.lt_succ_of_le short) outside
        (pages_putPage _ (after.setLsn lsn)) (stamped.trans afterNext)

theorem WellFormed.insertBytes (wf : WellFormed supply heap) (txn : Transaction)
    (order : DescendingSort TablePage.SlotRef.offset) (lsn : Option Nat) (bytes : List UInt8) :
    InsertOutcome supply heap txn (stampVersion bytes txn.id {})
      (TableHeap.insertBytes supply heap txn order lsn (.ok bytes)) := by
  obtain ⟨chain, linked, distinct, short⟩ := wf.chain
  rw [TableHeap.insertBytes]
  generalize stampVersion bytes txn.id {} = version
  have found := wf.findRoom (some order) version linked short
  generalize TableHeap.findRoom (some order) version heap = result at found ⊢
  obtain ⟨outcome, after⟩ := result
  cases outcome with
  | inserted id =>
    have done : Inserted supply heap version id after := found
    exact ⟨⟨rfl, rfl⟩, done.wellFormed, done.free, done.stored_eq⟩
  | failed status => exact found.elim
  | full last =>
    obtain ⟨same, whole, rfl⟩ := found
    rw [← same.shape.first_eq] at whole
    rw [← same.shape.allocated_eq] at short
    dsimp only [Call.extendChain]
    rw [allocatePage]
    cases supplied : supply.page after.allocated with
    | none => exact ⟨⟨rfl, rfl⟩, same.wellFormed, same.stored_eq⟩
    | some source =>
      exact same.insertOutcome (same.wellFormed.newPage supplied whole
        distinct short txn version lsn)

structure Marked (supply : PageSupply) (heap : TableHeap) (writer : Nat)
    (id : RecordID) (bytes : List UInt8) (after : TableHeap) : Prop where
  wellFormed : WellFormed supply after
  shape : SameShape heap after
  present : heap.stored id = some bytes
  size_le : byteSize ≤ bytes.length
  unclaimed : (readMvcc bytes).xmax = invalidTransactionID ∨ (readMvcc bytes).xmax = writer
  stored_eq : after.stored = Function.update heap.stored id (some (writeXmax bytes writer))

theorem Added.free_before {newId : RecordID} {newBytes : List UInt8} {middle after : TableHeap}
    (added : Added supply middle newBytes newId after)
    (marked : Marked supply heap writer id bytes middle) : heap.stored newId = none := by
  have free := added.free
  rw [marked.stored_eq] at free
  by_cases same : newId = id
  · rw [same, update_self] at free
    contradiction
  · rwa [update_of_ne same] at free

def Conflict (heap : TableHeap) (writer : Nat) (id : RecordID) : Prop :=
  ∃ bytes, heap.stored id = some bytes ∧ byteSize ≤ bytes.length ∧
    (readMvcc bytes).xmax ≠ invalidTransactionID ∧ (readMvcc bytes).xmax ≠
    writer

def Markable (heap : TableHeap) (writer : Nat) (id : RecordID) : Prop :=
  ∃ bytes, heap.stored id = some bytes ∧ byteSize ≤ bytes.length ∧
    ((readMvcc bytes).xmax = invalidTransactionID ∨ (readMvcc bytes).xmax
    = writer)

def MarkOutcome (supply : PageSupply) (heap : TableHeap) (transaction : Transaction) (id : RecordID)
    (result : Except HeapError Unit × Call) : Prop :=
  SameOwner transaction result.2.transaction ∧
    match result.1 with
    | .ok _ => ∃ bytes, Marked supply heap transaction.id id bytes result.2.heap
    | .error failure => Kept supply heap result.2.heap ∧ ¬ Markable heap transaction.id id ∧
        (failure = .status .transactionAborted ↔ Conflict heap transaction.id id)

theorem Marked.not_conflict {after : TableHeap}
    (marked : Marked supply heap writer id bytes after) : ¬ Conflict heap writer id := by
  rintro ⟨found, present, _, claimed, other⟩
  rw [marked.present] at present
  cases present
  rcases marked.unclaimed with unmarked | own
  · exact claimed unmarked
  · exact other own

theorem not_markable_of_none (missing : heap.stored id = none) : ¬ Markable heap writer id := by
  rintro ⟨bytes, present, _⟩
  rw [missing] at present
  contradiction

theorem not_conflict_of_none (missing : heap.stored id = none) : ¬ Conflict heap writer id := by
  rintro ⟨bytes, present, _⟩
  rw [missing] at present
  contradiction

theorem update_writeXmax_ok (there : heap.pages page.pageId = some page.data)
    (here : id.pageId = page.pageId) (present : heap.stored id = some bytes) (writer : Nat) :
    (page.update id (writeXmax bytes writer)).1 = .ok () := by
  rw [stored_of_page there here, TablePage.contents] at present
  split_ifs at present with live
  cases present
  rw [TablePage.update, TablePage.checkSlot_eq_none_iff.mpr ⟨here, live⟩]
  rw [if_pos]
  rw [writeXmax, length_writeNat]
  exact List.length_take_le _ _

/-- How marking a version goes: it is refused and changes nothing, or the page
of the version is changed and logged. -/
inductive MarkPath (heap : TableHeap) (type : LogRecordType) (transaction : Transaction)
    (id : RecordID) (lsn : Option Nat) : Except HeapError Unit × Call → Prop
  | refused {failure : HeapError} (free : ¬ Markable heap transaction.id id)
      (conflict : failure = .status .transactionAborted ↔ Conflict heap transaction.id id) :
      MarkPath heap type transaction id lsn (.error failure, ⟨heap, transaction, []⟩)
  | marked {page after : TablePage} {bytes : List UInt8}
      (there : heap.pages page.pageId = some page.data) (here : id.pageId = page.pageId)
      (present : heap.stored id = some bytes) (size : byteSize ≤ bytes.length)
      (unclaimed : (readMvcc bytes).xmax = invalidTransactionID ∨
      (readMvcc bytes).xmax = transaction.id) (after_wf : after.WellFormed)
      (afterId : after.pageId = page.pageId) (links : after.nextPageId = page.nextPageId) (map :
      after.contents = Function.update page.contents id.slotId (some (writeXmax bytes
      transaction.id))) : MarkPath heap type transaction id lsn (.ok (), (Call.logPage
      ⟨heap.putPage after, transaction, []⟩ type after lsn).addUndoRecord .delete id)

theorem WellFormed.markPath (wf : WellFormed supply heap)
    (type : LogRecordType) (txn : Transaction) (id : RecordID) (lsn : Option Nat) :
    MarkPath heap type txn id lsn (TableHeap.markDeleted type heap txn id lsn) := by
  rw [TableHeap.markDeleted]
  cases fetched : heap.fetchPage id.pageId with
  | error status =>
    rw [fetchPage] at fetched
    cases there : heap.pages id.pageId with
    | some data =>
      rw [there] at fetched
      contradiction
    | none =>
      rw [there] at fetched
      cases fetched
      have missing := stored_of_fresh there (@rfl _ id.pageId)
      exact .refused (not_markable_of_none missing)
        (iff_of_false (by simp) (not_conflict_of_none missing))
  | ok page =>
    obtain ⟨page_wf, sameId, there⟩ := wf.fetched fetched
    have stored_here := stored_of_page there sameId.symm
    dsimp only
    rw [page_wf.get_eq, TablePage.readMap, if_neg (not_not_intro sameId.symm), ← stored_here]
    cases present : heap.stored id with
    | none =>
      exact .refused (not_markable_of_none present)
        (iff_of_false (by simp) (not_conflict_of_none present))
    | some bytes =>
      dsimp only [Call.markBytes]
      by_cases small : bytes.length < byteSize
      · rw [if_pos small]
        refine .refused ?_ (iff_of_false (by simp) ?_)
        all_goals
          rintro ⟨other, again, size, _⟩
          rw [present] at again
          cases again
          exact absurd small (Nat.not_lt.mpr size)
      rw [if_neg small]
      by_cases claimed : (readMvcc bytes).xmax ≠ invalidTransactionID ∧
          (readMvcc bytes).xmax ≠ txn.id
      · rw [if_pos claimed]
        refine .refused ?_ (iff_of_true rfl ⟨bytes, present, Nat.le_of_not_lt small, claimed⟩)
        rintro ⟨other, again, _, unclaimed⟩
        rw [present] at again
        cases again
        exact unclaimed.elim claimed.1 claimed.2
      rw [if_neg claimed]
      have succeeds := update_writeXmax_ok there sameId.symm present txn.id
      have spec := page_wf.update_spec id (writeXmax bytes txn.id)
      have links := (page_wf.sameLinks_update id (writeXmax bytes txn.id)).nextPageId_eq
      generalize page.update id (writeXmax bytes txn.id) = result at succeeds spec links ⊢
      obtain ⟨outcome, after⟩ := result
      obtain rfl : outcome = .ok () := succeeds
      obtain ⟨_, _, after_wf, map, _, afterId⟩ := spec
      exact .marked there sameId.symm present (Nat.le_of_not_lt small) (by tauto) after_wf afterId
        links map

theorem WellFormed.markDeleted (wf : WellFormed supply heap)
    (type : LogRecordType) (txn : Transaction) (id : RecordID) (lsn : Option Nat) :
    MarkOutcome supply heap txn id (TableHeap.markDeleted type heap txn id lsn) := by
  have path := wf.markPath type txn id lsn
  generalize TableHeap.markDeleted type heap txn id lsn = result at path
  cases path with
  | refused free conflict => exact ⟨⟨rfl, rfl⟩, Kept.refl wf, free, conflict⟩
  | @marked page after bytes there here present size unclaimed after_wf afterId links map =>
    have target : (⟨page.pageId, id.slotId⟩ : RecordID) = id := by rw [← here]
    have put := wf.putPage there afterId links after_wf
    have logged := @Call.logPage_spec supply ⟨heap.putPage after, txn, []⟩ put after
      (pages_putPage heap after) type lsn
    have shape := Call.sameShape_logPage ⟨heap.putPage after, txn, []⟩ type after lsn
    refine ⟨⟨logged.2.id_eq, logged.2.state_eq⟩, bytes, logged.1.wellFormed,
      (sameShape_putPage heap after).trans shape, present, size, unclaimed, ?_⟩
    rw [← target]
    exact logged.1.stored_eq.trans (stored_putPage_update there afterId map)

/-- What a call of `update` may have done to the versions: nothing, or marked
the old version, and then added its successor or not. -/
inductive UpdateEffect (supply : PageSupply) (layout : TupleLayout) (heap : TableHeap)
    (writer : Nat) (id : RecordID) (record : Record) (after : TableHeap) : Prop
  | kept (same : Kept supply heap after)
  | marked (bytes : List UInt8) (first : Marked supply heap writer id bytes after)
  | replaced (middle : TableHeap) (bytes newBytes : List UInt8) (newId : RecordID) (first : Marked
      supply heap writer id bytes middle) (serialized : RecordSerializer.serialize record layout =
      .ok newBytes) (second : Added supply middle (stampVersion newBytes writer id) newId after)

def SuccessorOutcome (supply : PageSupply) (call : Call)
    (bytes : List UInt8) (result : Except HeapError Unit × Call) : Prop :=
  SameOwner call.transaction result.2.transaction ∧
    match result.1 with
    | .ok _ => ∃ id, Added supply call.heap bytes id result.2.heap
    | .error failure => failure ≠ .status .transactionAborted ∧
        Unchanged supply call.heap result.2.heap

/-- How the search for room in `update` goes: it fails and changes nothing, or
a page that was there has got the version and is logged. -/
inductive SuccessorPath (call : Call) (bytes : List UInt8) (lsn : Option Nat) :
    Except HeapError Unit × Call → Prop
  | failed {failure : HeapError} (fails : failure ≠ .status .transactionAborted) :
      SuccessorPath call bytes lsn (.error failure, call)
  | stored {page after : TablePage} {id : RecordID}
      (there : call.heap.pages page.pageId = some page.data) (here : id.pageId = page.pageId)
      (free : page.contents id.slotId = none) (after_wf : after.WellFormed)
      (afterId : after.pageId = page.pageId) (links : after.nextPageId = page.nextPageId)
      (map : after.contents = Function.update page.contents id.slotId (some bytes)) :
      SuccessorPath call bytes lsn (.ok (), (Call.logPage
        { call with heap := call.heap.putPage after } .insert after lsn).addUndoRecord .insert id)

theorem WellFormed.successorPath {call : Call} (wf : WellFormed supply call.heap)
    (bytes : List UInt8) (lsn : Option Nat) :
    SuccessorPath call bytes lsn
      (call.successor lsn (TableHeap.findRoom none bytes call.heap)) := by
  obtain ⟨chain, linked, distinct, short⟩ := wf.chain
  have ends := wf.findRoom none bytes linked short
  have found := wf.findRoom_uncompacted bytes
  generalize TableHeap.findRoom none bytes call.heap = result at ends found
  obtain ⟨outcome, after⟩ := result
  cases outcome with
  | failed status => exact ends.elim
  | full last =>
    obtain rfl : after = call.heap := found
    exact .failed (by simp)
  | inserted id =>
    obtain ⟨page, there, inserted, rfl⟩ := found
    have page_wf : page.WellFormed := wf.page page.pageId page.data there
    have spec := page_wf.insert_spec bytes
    have links := (page_wf.sameLinks_insert bytes).nextPageId_eq
    generalize page.insert bytes = answer at inserted spec links ⊢
    obtain ⟨returned, filled⟩ := answer
    cases inserted
    obtain ⟨here, free, filled_wf, map, _, filledId⟩ := spec
    have fetched : (call.heap.putPage filled).fetchPage id.pageId = .ok filled := by
      rw [fetchPage, here, ← filledId, pages_putPage]
    dsimp only [Call.successor]
    rw [fetched]
    exact .stored there here free filled_wf filledId links map

theorem WellFormed.successor_added {call : Call} {after : TablePage}
    (wf : WellFormed supply call.heap) (there : call.heap.pages page.pageId = some page.data)
    (here : id.pageId = page.pageId) (free : page.contents id.slotId = none)
    (after_wf : after.WellFormed) (afterId : after.pageId = page.pageId)
    (links : after.nextPageId = page.nextPageId)
    (map : after.contents = Function.update page.contents id.slotId (some bytes))
    (lsn : Option Nat) :
    Added supply call.heap bytes id (Call.logPage
        { call with heap := call.heap.putPage after } .insert after lsn).heap ∧
      SameOwner call.transaction (Call.logPage
        { call with heap := call.heap.putPage after } .insert after lsn).transaction := by
  have target : (⟨page.pageId, id.slotId⟩ : RecordID) = id := by rw [← here]
  have put := wf.putPage there afterId links after_wf
  have logged := @Call.logPage_spec supply { call with heap := call.heap.putPage after } put after
    (pages_putPage _ after) .insert lsn
  refine ⟨⟨logged.1.wellFormed, by rwa [stored_of_page there here], ?_⟩, logged.2⟩
  rw [logged.1.stored_eq, ← target]
  exact stored_putPage_update there afterId map

theorem WellFormed.successor {call : Call} (wf : WellFormed supply call.heap) (bytes : List UInt8)
    (lsn : Option Nat) :
    SuccessorOutcome supply call bytes
      (call.successor lsn (TableHeap.findRoom none bytes call.heap)) := by
  have path := wf.successorPath bytes lsn
  generalize call.successor lsn (TableHeap.findRoom none bytes call.heap) = result at path
  cases path with
  | failed fails => exact ⟨⟨rfl, rfl⟩, fails, wf, SameShape.refl _, rfl⟩
  | @stored page after id there here free after_wf afterId links map =>
    obtain ⟨added, owner⟩ := wf.successor_added there here free after_wf afterId links map lsn
    exact ⟨⟨owner.id_eq, owner.state_eq⟩, id, added⟩

/-- How a call of `update` may end: a call that fails has left all versions
alone, or it has marked the old one. -/
def UpdateOutcome (supply : PageSupply) (layout : TupleLayout)
    (heap : TableHeap) (transaction : Transaction) (id : RecordID)
    (record : Record) (result : Except HeapError Unit × Call) : Prop :=
  SameOwner transaction result.2.transaction ∧
    match result.1 with
    | .ok _ => ∃ middle bytes newBytes newId, Marked supply heap transaction.id id bytes middle ∧
        RecordSerializer.serialize record layout = .ok newBytes ∧
        Added supply middle (stampVersion newBytes transaction.id id) newId result.2.heap
    | .error failure =>
        (Kept supply heap result.2.heap ∧ ¬ Markable heap transaction.id id ∧
          (failure = .status .transactionAborted ↔ Conflict heap transaction.id id)) ∨
        (failure ≠ .status .transactionAborted ∧ ∃ bytes,
          Marked supply heap transaction.id id bytes result.2.heap)

theorem WellFormed.update_outcome (wf : WellFormed supply heap)
    (layout : TupleLayout) (txn : Transaction) (id : RecordID)
    (record : Record) (markLsn insertLsn : Option Nat) :
    UpdateOutcome supply layout heap txn id record
      (TableHeap.update layout heap txn id record markLsn insertLsn) := by
  have mark := wf.markDeleted .update txn id markLsn
  rw [TableHeap.update]
  generalize TableHeap.markDeleted .update heap txn id markLsn = result at mark
  obtain ⟨outcome, call⟩ := result
  obtain ⟨owner, mark⟩ := mark
  cases outcome with
  | error failure => exact ⟨owner, Or.inl mark⟩
  | ok done =>
    obtain ⟨bytes, marked⟩ := mark
    dsimp only [replaceMarked]
    cases serialized : RecordSerializer.serialize record layout with
    | error failure => exact ⟨owner, Or.inr ⟨by simp, bytes, marked⟩⟩
    | ok newBytes =>
      dsimp only [Call.replace]
      rw [show call.transaction.id = txn.id from owner.id_eq]
      obtain ⟨second, effect⟩ := marked.wellFormed.successor
        (stampVersion newBytes txn.id id) insertLsn
      refine ⟨⟨second.id_eq.trans owner.id_eq, second.state_eq.trans owner.state_eq⟩, ?_⟩
      generalize call.successor insertLsn (TableHeap.findRoom none
        (stampVersion newBytes txn.id id) call.heap) = result at effect
      obtain ⟨outcome, last⟩ := result
      cases outcome with
      | ok done =>
        obtain ⟨newId, added⟩ := effect
        exact ⟨call.heap, bytes, newBytes, newId, marked, serialized, added⟩
      | error failure =>
        obtain ⟨fails, same⟩ := effect
        exact Or.inr ⟨fails, bytes, same.wellFormed, marked.shape.trans same.shape, marked.present,
          marked.size_le, marked.unclaimed, same.stored_eq.trans marked.stored_eq⟩

theorem WellFormed.update (wf : WellFormed supply heap) (layout : TupleLayout)
    (txn : Transaction) (id : RecordID) (record : Record)
    (markLsn insertLsn : Option Nat) :
    let result := TableHeap.update layout heap txn id record markLsn insertLsn
    SameOwner txn result.2.transaction ∧ (result.1 = .error (.status .transactionAborted) ↔
      Conflict heap txn.id id) ∧ UpdateEffect supply layout heap txn.id id record
      result.2.heap := by
  have outcome := wf.update_outcome layout txn id record markLsn insertLsn
  generalize TableHeap.update layout heap txn id record markLsn insertLsn = result at outcome
  obtain ⟨returned, call⟩ := result
  obtain ⟨owner, effect⟩ := outcome
  refine ⟨owner, ?_⟩
  cases returned with
  | ok done =>
    obtain ⟨middle, bytes, newBytes, newId, marked, serialized, added⟩ := effect
    exact ⟨iff_of_false (by simp) marked.not_conflict,
      .replaced middle bytes newBytes newId marked serialized added⟩
  | error failure =>
    rcases effect with ⟨kept, _, conflict⟩ | ⟨fails, bytes, marked⟩
    · refine ⟨?_, .kept kept⟩
      rw [← conflict]
      simp
    · exact ⟨iff_of_false (fun same => fails (Except.error.inj same))
        marked.not_conflict, .marked bytes marked⟩

theorem WellFormed.erase_aborted_iff (wf : WellFormed supply heap)
    (txn : Transaction) (id : RecordID) (lsn : Option Nat) :
    (TableHeap.erase heap txn id lsn).1 = .error (.status .transactionAborted) ↔
      Conflict heap txn.id id := by
  have outcome := (wf.markDeleted .delete txn id lsn).2
  rw [TableHeap.erase]
  generalize TableHeap.markDeleted .delete heap txn id lsn = result at outcome
  obtain ⟨returned, call⟩ := result
  cases returned with
  | error failure =>
    rw [← outcome.2.2]
    exact ⟨fun same => Except.error.inj same, congrArg Except.error⟩
  | ok value =>
    obtain ⟨bytes, marked⟩ := outcome
    exact iff_of_false (by simp) marked.not_conflict

/-- A version that no other transaction has marked is marked by `erase`. -/
theorem WellFormed.erase_of_markable (wf : WellFormed supply heap)
    (txn : Transaction) (id : RecordID) (lsn : Option Nat)
    (free : Markable heap txn.id id) :
    ∃ call bytes, TableHeap.erase heap txn id lsn = (.ok (), call) ∧
        SameOwner txn call.transaction ∧
        Marked supply heap txn.id id bytes call.heap := by
  have outcome := wf.markDeleted .delete txn id lsn
  rw [TableHeap.erase]
  generalize TableHeap.markDeleted .delete heap txn id lsn = result at outcome
  obtain ⟨returned, call⟩ := result
  obtain ⟨owner, done⟩ := outcome
  cases returned with
  | error failure => exact absurd free done.2.1
  | ok value =>
    obtain ⟨bytes, marked⟩ := done
    exact ⟨call, bytes, rfl, owner, marked⟩

theorem WellFormed.insert (wf : WellFormed supply heap) (layout : TupleLayout)
    (txn : Transaction) (record : Record)
    (order : DescendingSort TablePage.SlotRef.offset) (lsn : Option Nat) :
    let result := TableHeap.insert supply layout heap txn record order lsn
    SameOwner txn result.2.transaction ∧ (Kept supply heap result.2.heap ∨ ∃ id bytes,
      RecordSerializer.serialize record layout = .ok bytes ∧ Added supply heap
      (stampVersion bytes txn.id {}) id result.2.heap) := by
  rw [TableHeap.insert]
  cases serialized : RecordSerializer.serialize record layout with
  | error failure => exact ⟨⟨rfl, rfl⟩, Or.inl (Kept.refl wf)⟩
  | ok bytes =>
    have outcome := wf.insertBytes txn order lsn bytes
    generalize TableHeap.insertBytes supply heap txn order lsn (.ok bytes) = result at outcome
    obtain ⟨returned, call⟩ := result
    obtain ⟨owner, done⟩ := outcome
    refine ⟨owner, ?_⟩
    cases returned with
    | ok id => exact Or.inr ⟨id, bytes, rfl, done⟩
    | error failure => exact Or.inl done

end Calls

theorem pages_create (supply : PageSupply) :
    (create supply).pages = Function.update (fun _ => none)
      supply.first.pageId (some supply.first.init.data) := rfl

theorem create_wellFormed (supply : PageSupply) :
    WellFormed supply (create supply) ∧ (create supply).stored = fun _ => none := by
  have large := supply.large supply.first (List.mem_cons_self ..)
  obtain ⟨wellFormed, empty, _⟩ := TablePage.init_wellFormed large
  have only {pageId : Nat} {data : List UInt8} (there : (create supply).pages pageId = some data) :
      pageId = supply.first.pageId ∧ data = supply.first.init.data := by
    rw [pages_create] at there
    by_cases same : pageId = supply.first.pageId
    · subst same
      rw [update_self] at there
      exact ⟨rfl, (Option.some.inj there).symm⟩
    · rw [update_of_ne same] at there
      contradiction
  refine ⟨⟨?_, ?_, ?_⟩, ?_⟩
  · intro pageId data there
    obtain ⟨rfl, rfl⟩ := only there
    exact wellFormed
  · intro pageId data there
    obtain ⟨rfl, rfl⟩ := only there
    exact ⟨0, Nat.zero_lt_one, supply.first, rfl, rfl⟩
  · refine ⟨[supply.first.pageId], ?_, List.nodup_singleton _, le_rfl⟩
    refine ⟨rfl, supply.first.init.data, ?_, nextPageId_init large⟩
    rw [pages_create, update_self]
  funext id
  rw [stored]
  cases there : (create supply).pages id.pageId with
  | none => rfl
  | some data =>
    obtain ⟨same, rfl⟩ := only there
    exact congrFun empty id.slotId

end TableHeap

end KlyroDB
