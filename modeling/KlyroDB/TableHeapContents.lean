import KlyroDB.TablePageLinks

/-!
# What a table heap stores

A heap stands for a map from record identifiers to the bytes of versions.  Its
pages are linked in a chain, so that the search for room always ends.
-/

namespace KlyroDB

open Function (update_of_ne update_self)
open ByteMemory

theorem PageID.isValid_iff (pageId : Nat) :
    PageID.isValid pageId = true ↔ pageId ≠ PageID.invalid := by rw [PageID.isValid, bne_iff_ne]

namespace TableHeap

def stored (heap : TableHeap) (id : RecordID) : Option (List UInt8) :=
  (heap.pages id.pageId).bind fun data =>
    TablePage.contents ⟨id.pageId, data⟩ id.slotId

def Linked (heap : TableHeap) : Nat → List Nat → Prop
  | current, [] => current = PageID.invalid
  | current, pageId :: rest => current = pageId ∧ ∃ data, heap.pages pageId = some data ∧ Linked
      heap (TablePage.nextPageId ⟨pageId, data⟩) rest

structure WellFormed (supply : PageSupply) (heap : TableHeap) : Prop where
  page : ∀ pageId data, heap.pages pageId = some data → (⟨pageId, data⟩ : TablePage).WellFormed
  known : ∀ pageId data, heap.pages pageId = some data → ∃ index < heap.allocated, ∃ page,
    supply.page index = some page ∧ page.pageId = pageId
  chain : ∃ chain : List Nat, Linked heap heap.firstPageId chain ∧
    chain.Nodup ∧ chain.length ≤ heap.allocated

theorem WellFormed.pageId_lt {supply : PageSupply} {heap : TableHeap}
    (wf : WellFormed supply heap) {pageId : Nat} {data : List UInt8}
    (there : heap.pages pageId = some data) : pageId < PageID.invalid := by
  obtain ⟨index, _, page, supplied, rfl⟩ := wf.known pageId data there
  exact supply.valid page (List.mem_of_getElem? supplied)

theorem stored_putPage (heap : TableHeap) (page : TablePage) (id : RecordID) :
    (heap.putPage page).stored id =
      if id.pageId = page.pageId then page.contents id.slotId
      else heap.stored id := by
  by_cases here : id.pageId = page.pageId
  · rw [if_pos here, stored, putPage, here]
    simp
  · rw [if_neg here, stored, stored, putPage]
    dsimp only
    rw [update_of_ne here]

theorem stored_of_page {heap : TableHeap} {page : TablePage}
    (present : heap.pages page.pageId = some page.data) {id : RecordID}
    (here : id.pageId = page.pageId) : heap.stored id = page.contents id.slotId := by
  rw [stored, here, present]
  rfl

section

variable {heap : TableHeap} {page after : TablePage}
  (present : heap.pages page.pageId = some page.data) (sameId : after.pageId = page.pageId)

include present sameId

theorem stored_putPage_same (same : after.contents = page.contents) :
    (heap.putPage after).stored = heap.stored := by
  funext id
  rw [stored_putPage, sameId, same]
  split_ifs with here
  · exact (stored_of_page present here).symm
  · rfl

theorem stored_putPage_update {slot : Nat} {value : Option (List UInt8)}
    (changed : after.contents = Function.update page.contents slot value) :
    (heap.putPage after).stored = Function.update heap.stored ⟨page.pageId, slot⟩ value := by
  funext id
  rw [stored_putPage, sameId, changed]
  by_cases target : id = ⟨page.pageId, slot⟩
  · rw [target, if_pos rfl, update_self, update_self]
  rw [update_of_ne target]
  split_ifs with here
  · rw [update_of_ne, stored_of_page present here]
    intro sameSlot
    exact target (by cases id; cases here; cases sameSlot; rfl)
  · rfl

theorem Linked.putPage (sameNext : after.nextPageId = page.nextPageId) {current : Nat}
    {chain : List Nat} (linked : Linked heap current chain) :
    Linked (heap.putPage after) current chain := by
  induction chain generalizing current with
  | nil => exact linked
  | cons pageId rest ih =>
    obtain ⟨here, data, there, further⟩ := linked
    refine ⟨here, ?_⟩
    by_cases same : pageId = page.pageId
    · subst same
      refine ⟨after.data, ?_, ?_⟩
      · rw [TableHeap.putPage]
        dsimp only
        rw [sameId, update_self]
      rw [there] at present
      cases present
      have next : TablePage.nextPageId ⟨page.pageId, after.data⟩ =
          TablePage.nextPageId ⟨page.pageId, page.data⟩ := sameNext
      rw [next]
      exact ih further
    · refine ⟨data, ?_, ih further⟩
      rw [TableHeap.putPage]
      dsimp only
      rw [sameId, update_of_ne same, there]

end

section Pages

variable {supply : PageSupply} {heap : TableHeap}

theorem WellFormed.fetched (wf : WellFormed supply heap) {pageId : Nat}
    {page : TablePage} (fetched : heap.fetchPage pageId = .ok page) :
    page.WellFormed ∧ page.pageId = pageId ∧ heap.pages page.pageId = some page.data := by
  rw [fetchPage] at fetched
  cases present : heap.pages pageId with
  | none =>
    rw [present] at fetched
    contradiction
  | some data =>
    rw [present] at fetched
    cases fetched
    exact ⟨wf.page pageId data present, rfl, present⟩

section

variable (wf : WellFormed supply heap) {page after : TablePage}
  (present : heap.pages page.pageId = some page.data) (sameId : after.pageId = page.pageId)

include wf present sameId

theorem WellFormed.relink (wellFormed : after.WellFormed)
    (chain : ∃ chain : List Nat, Linked (heap.putPage after) heap.firstPageId chain ∧ chain.Nodup ∧
        chain.length ≤ heap.allocated) : WellFormed supply (heap.putPage after) := by
  constructor
  case page =>
    intro pageId data there
    by_cases same : pageId = after.pageId
    · subst same
      rw [TableHeap.putPage] at there
      dsimp only at there
      rw [update_self] at there
      cases there
      exact wellFormed
    · rw [TableHeap.putPage] at there
      dsimp only at there
      rw [update_of_ne same] at there
      exact wf.page pageId data there
  case known =>
    intro pageId data there
    by_cases same : pageId = after.pageId
    · rw [same, sameId]
      exact wf.known page.pageId page.data present
    · rw [TableHeap.putPage] at there
      dsimp only at there
      rw [update_of_ne same] at there
      exact wf.known pageId data there
  case chain => exact chain

theorem WellFormed.putPage (sameNext : after.nextPageId = page.nextPageId)
    (wellFormed : after.WellFormed) : WellFormed supply (heap.putPage after) := by
  obtain ⟨chain, linked, distinct, short⟩ := wf.chain
  exact wf.relink present sameId wellFormed
    ⟨chain, linked.putPage present sameId sameNext, distinct, short⟩

end

variable {id : RecordID} {bytes : List UInt8}

section

variable (wf : WellFormed supply heap) (present : heap.stored id = some bytes)

include wf present

theorem WellFormed.stored_bounds :
    id.pageId < PageID.invalid ∧ id.slotId < RecordID.invalidSlot := by
  rw [stored] at present
  cases there : heap.pages id.pageId with
  | none =>
    rw [there] at present
    contradiction
  | some data =>
    rw [there, Option.bind_some, TablePage.contents] at present
    split_ifs at present with live
    have page := wf.page id.pageId data there
    have bounds := page.toBounded.bounds
    refine ⟨wf.pageId_lt there, ?_⟩
    have bound := live.1
    rw [RecordID.invalidSlot]
    omega

theorem WellFormed.isValid_of_stored : id.isValid = true := by
  obtain ⟨page, slot⟩ := wf.stored_bounds present
  rw [RecordID.isValid, Bool.and_eq_true, PageID.isValid_iff, bne_iff_ne]
  exact ⟨page.ne, slot.ne⟩

theorem WellFormed.getBytes_of_stored : heap.getBytes id = .ok bytes := by
  rw [stored] at present
  rw [getBytes, fetchPage]
  cases there : heap.pages id.pageId with
  | none =>
    rw [there] at present
    contradiction
  | some data =>
    rw [there, Option.bind_some] at present
    dsimp only
    rw [(wf.page id.pageId data there).get_eq, TablePage.readMap,
      if_neg (not_not_intro rfl), present]

end

end Pages

structure SameShape (heap after : TableHeap) : Prop where
  first_eq : after.firstPageId = heap.firstPageId
  allocated_eq : after.allocated = heap.allocated

theorem SameShape.refl (heap : TableHeap) : SameShape heap heap := ⟨rfl, rfl⟩

theorem SameShape.trans {first second third : TableHeap}
    (early : SameShape first second) (late : SameShape second third) : SameShape first third :=
  ⟨late.first_eq.trans early.first_eq, late.allocated_eq.trans early.allocated_eq⟩

theorem sameShape_putPage (heap : TableHeap) (page : TablePage) :
    SameShape heap (heap.putPage page) := ⟨rfl, rfl⟩

/-- A search that finds room adds the version; one that does not has changed
nothing and ends at the last page of the chain. -/
structure Inserted (supply : PageSupply) (heap : TableHeap)
    (bytes : List UInt8) (id : RecordID) (after : TableHeap) : Prop where
  wellFormed : WellFormed supply after
  shape : SameShape heap after
  free : heap.stored id = none
  stored_eq : after.stored = Function.update heap.stored id (some bytes)

structure Unchanged (supply : PageSupply) (heap after : TableHeap) : Prop where
  wellFormed : WellFormed supply after
  shape : SameShape heap after
  stored_eq : after.stored = heap.stored

def Found (supply : PageSupply) (heap : TableHeap) (bytes : List UInt8)
    (chain : List Nat) : Search × TableHeap → Prop
  | (.inserted id, after) => Inserted supply heap bytes id after
  | (.full last, after) => Unchanged supply heap after ∧ Linked after heap.firstPageId chain ∧ last
      = chain.getLast?.getD PageID.invalid
  | (.failed _, _) => False

section Search

variable {supply : PageSupply} {heap : TableHeap}

theorem makeRoom_spec {page : TablePage} (page_wf : page.WellFormed)
    (compaction : Option (DescendingSort TablePage.SlotRef.offset)) (bytes : List UInt8) :
    (makeRoom compaction bytes page).WellFormed ∧
      (makeRoom compaction bytes page).contents = page.contents ∧
      (makeRoom compaction bytes page).pageId = page.pageId ∧
      (makeRoom compaction bytes page).nextPageId = page.nextPageId := by
  cases compaction with
  | none => exact ⟨page_wf, rfl, rfl, rfl⟩
  | some order =>
    dsimp only [makeRoom]
    split_ifs with small
    · obtain ⟨wellFormed, map, _, sameId⟩ := page_wf.compact_spec order
      exact ⟨wellFormed, map, sameId, (page_wf.sameLinks_compact order).nextPageId_eq⟩
    · exact ⟨page_wf, rfl, rfl, rfl⟩

theorem Unchanged.inserted {middle after : TableHeap} {bytes : List UInt8}
    {id : RecordID} (same : Unchanged supply heap middle)
    (done : Inserted supply middle bytes id after) : Inserted supply heap bytes id after :=
  ⟨done.wellFormed, same.shape.trans done.shape, same.stored_eq ▸ done.free,
    same.stored_eq ▸ done.stored_eq⟩

/-- The loop stands at a page of the chain, with what follows still to be
visited, and has changed no version so far. -/
structure Searching (supply : PageSupply) (heap : TableHeap)
    (chain : List Nat) (cursor : Cursor) (rest : List Nat) : Prop where
  same : Unchanged supply heap cursor.heap
  whole : Linked cursor.heap heap.firstPageId chain
  linked : Linked cursor.heap cursor.current rest
  last_eq : rest.getLast?.getD cursor.last = chain.getLast?.getD PageID.invalid

theorem getLast?_cons_getD (first last : Nat) (rest : List Nat) :
    (first :: rest).getLast?.getD last = rest.getLast?.getD first := by
  cases rest with
  | nil => rfl
  | cons second others =>
    rfl

def Searched (supply : PageSupply) (heap : TableHeap) (bytes : List UInt8) (chain rest : List Nat) :
    BoundedLoop.Round Cursor (Search × TableHeap) → Prop
  | .again next => ∃ further, Searching supply heap chain next further ∧
      further.length < rest.length
  | .done result => Found supply heap bytes chain result

theorem Searching.tryPage {cursor : Cursor} {chain rest : List Nat}
    (searching : Searching supply heap chain cursor rest)
    (compaction : Option (DescendingSort TablePage.SlotRef.offset)) (bytes : List UInt8) :
    Searched supply heap bytes chain rest (TableHeap.tryPage compaction bytes cursor) := by
  obtain ⟨before, current, middle⟩ := cursor
  obtain ⟨same, whole, linked, lastEq⟩ := searching
  have wf := same.wellFormed
  cases rest with
  | nil =>
    have ends : ¬ PageID.isValid current = true := by
      rw [PageID.isValid_iff]
      exact not_not_intro linked
    rw [TableHeap.tryPage, if_neg ends]
    exact ⟨same, whole, lastEq⟩
  | cons pageId others =>
    obtain ⟨rfl, data, there, further⟩ := linked
    have valid : PageID.isValid current = true := by
      rw [PageID.isValid_iff]
      exact (wf.pageId_lt there).ne
    obtain ⟨ready_wf, map, sameId, next⟩ :=
      makeRoom_spec (wf.page current data there) compaction bytes
    rw [TableHeap.tryPage, if_pos valid, fetchPage, there]
    dsimp only
    generalize makeRoom compaction bytes ⟨current, data⟩ = ready at *
    have spec := ready_wf.insert_spec bytes
    have links := (ready_wf.sameLinks_insert bytes).nextPageId_eq
    generalize ready.insert bytes = result at spec links ⊢
    cases result with
    | mk outcome after =>
      cases outcome with
      | ok id =>
        obtain ⟨here, free, after_wf, added, _, afterId⟩ := spec
        have target : (⟨current, id.slotId⟩ : RecordID) = id := by
          rw [show current = id.pageId from (here.trans sameId).symm]
        rw [map] at free added
        have done : Inserted supply middle bytes id (middle.putPage after) := by
          refine ⟨wf.putPage there (afterId.trans sameId)
            (links.trans next) after_wf, sameShape_putPage _ _, ?_, ?_⟩
          · rw [@stored_of_page middle ⟨current, data⟩ there id (here.trans sameId)]
            exact free
          · rw [← target]
            exact stored_putPage_update there (afterId.trans sameId) added
        exact same.inserted done
      | error status =>
        subst spec
        refine ⟨others, ⟨⟨wf.putPage there sameId next ready_wf, same.shape.trans
          (sameShape_putPage _ _), ?_⟩, whole.putPage there sameId next, ?_, ?_⟩, ?_⟩
        · rw [stored_putPage_same there sameId map, same.stored_eq]
        · rw [next]
          exact further.putPage there sameId next
        · rw [← lastEq, getLast?_cons_getD]
        · exact Nat.lt_succ_self _

theorem WellFormed.findRoom (wf : WellFormed supply heap)
    (compaction : Option (DescendingSort TablePage.SlotRef.offset))
    (bytes : List UInt8) {chain : List Nat} (linked : Linked heap heap.firstPageId chain)
    (short : chain.length ≤ heap.allocated) :
    Found supply heap bytes chain (TableHeap.findRoom compaction bytes heap) := by
  have ends (rounds : Nat) (cursor : Cursor) (rest : List Nat) (searching : Searching supply heap
      chain cursor rest) (enough : rest.length < rounds) : ∃ result, BoundedLoop.run
      (TableHeap.tryPage compaction bytes) rounds cursor = some result ∧ Found supply heap bytes
      chain result := by
    induction rounds generalizing cursor rest with
    | zero => exact absurd enough (Nat.not_lt_zero _)
    | succ rounds ih =>
      have step := searching.tryPage compaction bytes
      cases next : TableHeap.tryPage compaction bytes cursor with
      | again later =>
        rw [next] at step
        obtain ⟨shorter, further, less⟩ := step
        rw [BoundedLoop.run_succ_of_again next]
        exact ih later shorter further (by omega)
      | done result =>
        rw [next] at step
        exact ⟨result, BoundedLoop.run_succ_of_done next, step⟩
  obtain ⟨result, run, found⟩ := ends (heap.allocated + 1) ⟨PageID.invalid, heap.firstPageId, heap⟩
    chain ⟨⟨wf, SameShape.refl heap, rfl⟩, linked, linked, rfl⟩ (by omega)
  rw [TableHeap.findRoom, run]
  exact found

theorem putPage_self {page : TablePage} (there : heap.pages page.pageId = some page.data) :
    heap.putPage page = heap := by rw [putPage, ← there, Function.update_eq_self]

def FoundUncompacted (heap : TableHeap) (bytes : List UInt8) : Search × TableHeap → Prop
  | (.inserted id, after) => ∃ page : TablePage, heap.pages page.pageId = some page.data ∧
      (page.insert bytes).1 = .ok id ∧ after = heap.putPage (page.insert bytes).2
  | (.full _, after) => after = heap
  | (.failed _, after) => after = heap

def TriedUncompacted (heap : TableHeap) (bytes : List UInt8) :
    BoundedLoop.Round Cursor (Search × TableHeap) → Prop
  | .again next => next.heap = heap
  | .done result => FoundUncompacted heap bytes result

theorem WellFormed.tryPage_uncompacted (wf : WellFormed supply heap)
    (bytes : List UInt8) (last current : Nat) :
    TriedUncompacted heap bytes (tryPage none bytes ⟨last, current, heap⟩) := by
  by_cases valid : PageID.isValid current = true
  · rw [tryPage, if_pos valid]
    dsimp only [makeRoom]
    cases fetched : heap.fetchPage current with
    | error status =>
      rw [TriedUncompacted, FoundUncompacted]
    | ok page =>
      obtain ⟨page_wf, -, there⟩ := wf.fetched fetched
      have spec := page_wf.insert_spec bytes
      dsimp only
      generalize answerEq : page.insert bytes = answer at spec ⊢
      obtain ⟨outcome, after⟩ := answer
      cases outcome with
      | ok id =>
        refine ⟨page, there, ?_, ?_⟩
        · rw [answerEq]
        · rw [answerEq]
      | error status =>
        have same : after = page := spec
        rw [Cursor.advance, TriedUncompacted, same]
        exact putPage_self there
  · rw [tryPage, if_neg valid, TriedUncompacted, FoundUncompacted]

theorem WellFormed.findRoom_uncompacted (wf : WellFormed supply heap) (bytes : List UInt8) :
    FoundUncompacted heap bytes (TableHeap.findRoom none bytes heap) := by
  have ends (rounds last current : Nat) : FoundUncompacted heap bytes ((BoundedLoop.run
      (TableHeap.tryPage none bytes) rounds ⟨last, current, heap⟩).getD
      (.failed .internalError, heap)) := by
    induction rounds generalizing last current with
    | zero => rfl
    | succ rounds ih =>
      have round := wf.tryPage_uncompacted bytes last current
      cases next : TableHeap.tryPage none bytes ⟨last, current, heap⟩ with
      | again later =>
        rw [next] at round
        obtain ⟨further, page, after⟩ := later
        obtain rfl : after = heap := round
        rw [BoundedLoop.run_succ_of_again next]
        exact ih further page
      | done result =>
        rw [next] at round
        rw [BoundedLoop.run_succ_of_done next]
        exact round
  exact ends _ _ _

end Search

end TableHeap

end KlyroDB
