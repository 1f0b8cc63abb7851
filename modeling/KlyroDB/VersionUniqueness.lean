import KlyroDB.TransactionalHeap

/-!
# Visible versions of one row

`update` checks neither whether a version was replaced before nor whether the
transaction sees it, so a row may have several visible versions.
-/

namespace KlyroDB

open TableHeap (create_wellFormed stampVersion versions_of_stored)
open TransactionalHeap (counter_le_run counter_step run_append run_flagRecord serialize_flagRecord)
open Function (update_of_ne update_self)
open RecordHeader (byteSize readMvcc)
open TransactionRegistry (getState isCommitted)
open VersionStore

/-- A state together with the registries that transactions met when they
began. -/
structure HeapHistory where
  now : TransactionalHeap
  atBegin : Nat → TransactionRegistry := fun _ => ∅

namespace TableHeap

variable {supply : PageSupply} {heap after : TableHeap} {writer : Nat}
  {id : RecordID} {bytes : List UInt8}

theorem Added.replaces_fresh {prev old new : RecordID}
    (added : Added supply heap (stampVersion bytes writer prev) id after)
    (size : byteSize ≤ bytes.length) (small : writer < 2 ^ 64)
    (smallPage : prev.pageId < 2 ^ 64) (smallSlot : prev.slotId < 2 ^ 32)
    (free : heap.versions new = none)
    (replaces : Replaces after.versions old new) : prev.link = some old := by
  obtain ⟨version, present, link⟩ := replaces
  rw [versions_update heap after id _ added.stored_eq,
    version_stampVersion size small smallPage smallSlot] at present
  by_cases same : new = id
  · rw [same, update_self] at present
    cases present
    exact link
  · rw [update_of_ne same, free] at present
    contradiction

theorem Marked.not_replaces_fresh {old new : RecordID}
    (marked : Marked supply heap writer id bytes after)
    (free : heap.versions new = none) : ¬ Replaces after.versions old new := by
  rintro ⟨version, present, _⟩
  rw [versions_update heap after id _ marked.stored_eq] at present
  by_cases same : new = id
  · rw [same, versions_of_stored marked.present] at free
    contradiction
  · rw [update_of_ne same, free] at present
    contradiction

variable {knows : Nat → Nat → Prop}

theorem Kept.linear (kept : Kept supply heap after)
    (linear : Linear knows heap.versions) : Linear knows after.versions := by
  have same : after.versions = heap.versions := by
    funext id
    rw [versions, versions, kept.stored_eq]
  rw [same]
  exact linear

theorem Marked.linear (marked : Marked supply heap writer id bytes after)
    (small : writer < 2 ^ 64) (issued : writer ≠ invalidTransactionID)
    (linear : Linear knows heap.versions) (chained : Chained heap.versions) :
    Linear knows after.versions :=
  (marked.write small issued).linear linear chained
    fun _ _ free replaces => absurd replaces (marked.not_replaces_fresh free)

theorem UpdateEffect.linear {layout : TupleLayout} {record : Record}
    (effect : UpdateEffect supply layout heap writer id record after)
    (wf : WellFormed supply heap) (small : writer < 2 ^ 64) (issued : writer ≠ invalidTransactionID)
    (linear : Linear knows heap.versions) (chained : Chained heap.versions)
    (once : ∀ other, ¬ Replaces heap.versions id other)
    (known : ∀ version, heap.versions id = some version →
      version.creator = writer ∨ knows writer version.creator) : Linear knows after.versions := by
  cases effect with
  | kept same => exact same.linear linear
  | marked bytes first => exact first.linear small issued linear chained
  | replaced middle bytes newBytes newId first serialized second =>
    have mark := first.write small issued
    have bounds := wf.stored_bounds first.present
    rw [PageID.invalid, RecordID.invalidSlot] at bounds
    refine (first.replacement wf second serialized small issued).linear
      (first.linear small issued linear chained) (mark.chained chained) ?_
    intro old new free replaces
    have linked := second.replaces_fresh
      (RecordSerializer.byteSize_le_of_serialize serialized) small (by omega)
      (by omega) free replaces
    obtain rfl := RecordID.eq_of_link_eq_some linked
    constructor
    · intro other again
      rcases mark.replaces again with before | ⟨otherFree, _⟩
      · exact once other before
      · exact first.not_replaces_fresh otherFree again
    intro replaced present
    rcases mark.stored_of_later present with
      ⟨version, before, sameCreator, _⟩ | ⟨missing, created⟩
    · rw [sameCreator]
      exact known version before
    · exact Or.inl created

end TableHeap

namespace HeapHistory

def step (supply : PageSupply) (history : HeapHistory) (event : HeapStep) : HeapHistory where
  now := TransactionalHeap.step supply history.now event
  atBegin :=
    match event with
    | .call (.begin _ _) =>
        Function.update history.atBegin history.now.manager.nextTxnId history.now.manager.registry
    | _ => history.atBegin

def initial (supply : PageSupply) : HeapHistory where
  now := TransactionalHeap.initial supply

def run (supply : PageSupply) (steps : List HeapStep) : HeapHistory :=
  GuardedRuns.run (step supply) (initial supply) steps

def Knows (history : HeapHistory) (txn other : Nat) : Prop :=
  (history.atBegin txn).isCommitted other = true

/-- An update replaces a version without a replacement, which its transaction
created itself or found committed when it began. -/
def ReplacesKnown (history : HeapHistory) : HeapStep → Prop
  | .update writer _ id _ _ _ =>
      (∀ other, ¬ Replaces history.now.heap.versions id other) ∧
        ∀ version, history.now.heap.versions id = some version →
          version.creator = writer ∨ history.Knows writer version.creator
  | _ => True

structure Lined (supply : PageSupply) (history : HeapHistory) : Prop where
  sound : TransactionalHeap.Sound supply history.now
  unborn : ∀ txn, history.now.manager.nextTxnId ≤ txn → history.atBegin txn = ∅
  known : ∀ txn other, history.Knows txn other →
    history.now.manager.registry.isCommitted other = true
  linear : Linear history.Knows history.now.heap.versions

theorem lined_initial (supply : PageSupply) : Lined supply (initial supply) := by
  refine ⟨TransactionalHeap.sound_initial supply, fun _ _ => rfl, ?_, ?_⟩
  · intro txn other known
    exact absurd known (by simp [Knows, initial, isCommitted, getState])
  have empty : (initial supply).now.heap.versions = fun _ => none := by
    funext id
    change Option.map _ ((TableHeap.create supply).stored id) = none
    rw [(create_wellFormed supply).2]
    rfl
  rw [empty]
  exact linear_empty _

section Steps

variable {supply : PageSupply} {history : HeapHistory}

theorem isCommitted_of_progress {state later : TransactionalHeap}
    (progress : TransactionalHeap.Progress state later) {id : Nat}
    (committed : state.manager.registry.isCommitted id = true) :
    later.manager.registry.isCommitted id = true := by
  rw [isCommitted, getState, beq_iff_eq] at committed ⊢
  exact progress.settled id .committed committed (by simp)

/-- A step other than `begin` keeps the recorded registries. -/
theorem atBegin_step {event : HeapStep}
    (noBegin : ∀ isoLevel wal, event ≠ .call (.begin isoLevel wal)) :
    (step supply history event).atBegin = history.atBegin := by
  cases event with
  | call call =>
    cases call with
    | begin isoLevel wal => exact absurd rfl (noBegin isoLevel wal)
    | commit pointer wal | abort pointer abortWal endWal => rfl
  | insert writer layout record order lsn | update writer layout id record markLsn insertLsn
  | erase writer id lsn => rfl

section

variable (lined : Lined supply history)

include lined

theorem Lined.linear_write (fits : history.now.Fits) {writer : Nat}
    {operation : Transaction → TableHeap.Call}
    (keeps : ∀ txn, txn.id = writer → writer < 2 ^ 64 →
      writer ≠ invalidTransactionID → Linear history.Knows (operation txn).heap.versions) :
    Linear history.Knows (history.now.write writer operation).heap.versions := by
  rcases lined.sound.write_cases fits writer operation with same |
    ⟨txn, sameId, _, _, small, issued, result⟩
  · rw [same]
    exact lined.linear
  · rw [result]
    exact keeps txn sameId small issued

theorem Lined.linear_step (fits : history.now.Fits) {event : HeapStep}
    (allowed : history.ReplacesKnown event) :
    Linear history.Knows (TransactionalHeap.step supply history.now event).heap.versions := by
  have wf := lined.sound.wellFormed
  have chained := lined.sound.chained
  cases event with
  | call call => exact lined.linear
  | insert writer layout record order lsn =>
    refine lined.linear_write fits ?_
    intro txn sameId small issued
    obtain ⟨_, effect⟩ := wf.insert layout txn record order lsn
    rw [sameId] at effect
    rcases effect with kept | ⟨id, bytes, serialized, added⟩
    · exact kept.linear lined.linear
    refine (added.unlinked serialized small).linear lined.linear chained ?_
    intro old new free replaces
    have linked := added.replaces_fresh (RecordSerializer.byteSize_le_of_serialize serialized) small
      (Nat.sub_lt (by omega) (by omega)) (Nat.sub_lt (by omega) (by omega))
      free replaces
    contradiction
  | update writer layout id record markLsn insertLsn =>
    refine lined.linear_write fits ?_
    intro txn sameId small issued
    obtain ⟨_, _, effect⟩ := wf.update layout txn id record markLsn insertLsn
    rw [sameId] at effect
    exact effect.linear wf small issued lined.linear chained allowed.1 allowed.2
  | erase writer id lsn =>
    refine lined.linear_write fits ?_
    intro txn sameId small issued
    have outcome := wf.markDeleted .delete txn id lsn
    rw [TableHeap.erase]
    generalize TableHeap.markDeleted .delete history.now.heap txn id lsn = result at outcome
    obtain ⟨returned, call⟩ := result
    obtain ⟨_, done⟩ := outcome
    cases returned with
    | error failure => exact done.1.linear lined.linear
    | ok value =>
      obtain ⟨bytes, marked⟩ := done
      rw [sameId] at marked
      exact marked.linear small issued lined.linear chained

theorem Lined.knows_begin (isoLevel : IsolationLevel) (wal : WalReply) {txn other : Nat}
    (known : history.Knows txn other) :
    (step supply history (.call (.begin isoLevel wal))).Knows txn other := by
  have born : txn ≠ history.now.manager.nextTxnId := by
    rintro rfl
    rw [Knows, lined.unborn _ le_rfl] at known
    simp [isCommitted, getState] at known
  rw [Knows, step]
  dsimp only
  rw [update_of_ne born]
  exact known

theorem Lined.step (fits : history.now.Fits) {event : HeapStep}
    (allowed : history.ReplacesKnown event) : Lined supply (step supply history event) := by
  have progress := lined.sound.progress_step fits event
  have counter :=
    (counter_step supply history.now event).1
  have linear := lined.linear_step fits allowed
  have sound := lined.sound.step fits event
  by_cases begins : ∃ isoLevel wal, event = .call (.begin isoLevel wal)
  · obtain ⟨isoLevel, wal, rfl⟩ := begins
    have next : (TransactionalHeap.step supply history.now
        (.call (.begin isoLevel wal))).manager.nextTxnId = history.now.manager.nextTxnId + 1 := by
      cases wal <;> rfl
    refine ⟨sound, ?_, ?_, linear.mono fun _ _ =>
      lined.knows_begin isoLevel wal⟩
    · intro txn later
      change Function.update _ _ _ txn = ∅
      change (TransactionalHeap.step supply history.now
        (.call (.begin isoLevel wal))).manager.nextTxnId ≤ txn at later
      rw [update_of_ne (by omega)]
      exact lined.unborn txn (by omega)
    intro txn other known
    apply isCommitted_of_progress progress
    change (Function.update history.atBegin _ _ txn).isCommitted other = true at known
    by_cases same : txn = history.now.manager.nextTxnId
    · rw [same, update_self] at known
      exact known
    · rw [update_of_ne same] at known
      exact lined.known txn other known
  have kept := @atBegin_step supply history event fun isoLevel wal same =>
    begins ⟨isoLevel, wal, same⟩
  have knows : (HeapHistory.step supply history event).Knows =
      history.Knows := by
    funext txn other
    rw [Knows, Knows, kept]
  refine ⟨sound, ?_, ?_, ?_⟩
  · intro txn later
    rw [kept]
    exact lined.unborn txn (counter.trans later)
  · intro txn other known
    rw [knows] at known
    exact isCommitted_of_progress progress (lined.known txn other known)
  · rw [knows]
    exact linear

end

theorem now_run (steps : List HeapStep) :
    (GuardedRuns.run (HeapHistory.step supply) history steps).now =
      GuardedRuns.run (TransactionalHeap.step supply) history.now steps := by
  induction steps generalizing history with
  | nil => rfl
  | cons event steps ih => exact ih

theorem Lined.run (lined : Lined supply history) {steps : List HeapStep}
    (fits : (GuardedRuns.run (HeapHistory.step supply) history steps).now.Fits)
    (guarded : GuardedRuns.Along (HeapHistory.step supply) ReplacesKnown history steps) :
    Lined supply (GuardedRuns.run (HeapHistory.step supply) history steps) := by
  induction steps generalizing history with
  | nil => exact lined
  | cons event steps ih =>
    have here : history.now.Fits := by
      rw [now_run] at fits
      exact (counter_le_run supply history.now (event :: steps)).trans fits
    exact ih (lined.step here guarded.1) fits guarded.2

theorem atBegin_run {txn : Nat}
    (begun : txn < history.now.manager.nextTxnId) (steps : List HeapStep) :
    (GuardedRuns.run (HeapHistory.step supply) history steps).atBegin txn =
      history.atBegin txn := by
  induction steps generalizing history with
  | nil => rfl
  | cons event steps ih =>
    have counter :=
      (counter_step supply history.now event).1
    refine (ih (lt_of_lt_of_le begun counter)).trans ?_
    by_cases begins : ∃ isoLevel wal, event = .call (.begin isoLevel wal)
    · obtain ⟨isoLevel, wal, rfl⟩ := begins
      exact update_of_ne begun.ne _ _
    · rw [@atBegin_step supply history event fun isoLevel wal same =>
        begins ⟨isoLevel, wal, same⟩]

end Steps

/-- In runs that replace known versions once, at most one version of a row is
visible to a transaction under a snapshot taken after it began. -/
theorem visible_version_unique (supply : PageSupply) (before further : List HeapStep)
    (fits : (run supply (before ++ further)).now.Fits)
    (guarded : GuardedRuns.Along (step supply) ReplacesKnown (initial supply)
      (before ++ further)) (reader : Nat)
    (begun : reader < (run supply before).now.manager.nextTxnId)
    (row first second : RecordID) (one two : List UInt8)
    (firstOf : Descends (run supply (before ++ further)).now.heap.versions row first)
    (secondOf : Descends (run supply (before ++ further)).now.heap.versions row second)
    (firstStored : (run supply (before ++ further)).now.heap.stored first = some one)
    (secondStored : (run supply (before ++ further)).now.heap.stored second = some two)
    (firstVisible : isVisible (run supply (before ++ further)).now.manager.registry
      (readMvcc one) (run supply before).now.manager.createSnapshot reader = true)
    (secondVisible : isVisible (run supply (before ++ further)).now.manager.registry
      (readMvcc two) (run supply before).now.manager.createSnapshot reader = true) :
    first = second := by
  have appended : run supply (before ++ further) =
      GuardedRuns.run (step supply) (run supply before) further :=
    GuardedRuns.run_append before further
  have final := (lined_initial supply).run fits guarded
  change Lined supply (run supply (before ++ further)) at final
  have startFits : (run supply before).now.Fits := by
    rw [appended, now_run] at fits
    exact (counter_le_run supply _ further).trans fits
  have start := (lined_initial supply).run startFits guarded.append.1
  change Lined supply (run supply before) at start
  have progress : TransactionalHeap.Progress (run supply before).now
      (run supply (before ++ further)).now := by
    rw [appended, now_run] at fits ⊢
    exact (start.sound.run further fits).2
  have sees := TransactionalHeap.sees_iff_committed start.sound final.sound progress reader
  rw [TableHeap.isVisible_iff_visible] at firstVisible secondVisible
  refine final.linear.visible_unique final.sound.chained ?_ firstOf secondOf
    (versions_of_stored firstStored)
    (versions_of_stored secondStored) firstVisible secondVisible
  intro txn other seen known
  rw [sees] at seen ⊢
  have old : txn < (run supply before).now.manager.nextTxnId := by
    rcases seen with rfl | committed
    · exact begun
    · exact ((start.sound.consistent.registered_iff txn).mp
        (TransactionManager.mem_registry_of_lookup (beq_iff_eq.mp committed))).2
  rw [Knows, appended, atBegin_run old] at known
  exact Or.inr (start.known txn other known)

open TransactionalHeap (onePage flagLayout flagRecord flagBytes firstInsert
  firstWriter byteSize_le_flagBytes readMvcc_flagVersion)

/-- The inserted record is replaced by its own transaction. -/
def flagUpdate : HeapStep :=
  .update 1 flagLayout ⟨1, 0⟩ flagRecord none none

theorem readMvcc_flagSuccessor :
    readMvcc (stampVersion flagBytes 1 ⟨1, 0⟩) = ⟨1, invalidTransactionID, ⟨1, 0⟩⟩ :=
  TableHeap.readMvcc_stampVersion byteSize_le_flagBytes (by decide) (by decide) (by decide)

theorem isVisible_own (registry : TransactionRegistry) (snapshot : Snapshot)
    (reader : Nat) (prev : RecordID) :
    isVisible registry ⟨reader, invalidTransactionID, prev⟩ snapshot reader = true := by
  simp [isVisible]

theorem run_flagUpdate :
    ∃ object heap,
      TransactionalHeap.run onePage (firstInsert flagLayout flagRecord ++ [flagUpdate]) =
        { manager :=
            { firstWriter with
              transactions := firstWriter.transactions.insert 1 object }
          heap := heap } ∧
      object.id = 1 ∧ object.state = .active ∧ heap.firstPageId = 1 ∧
      TableHeap.Roomy onePage heap 2 338 ∧
      heap.stored ⟨1, 0⟩ = some (RecordHeader.writeXmax (stampVersion flagBytes 1 {}) 1) ∧
      heap.stored ⟨1, 1⟩ = some (stampVersion flagBytes 1 ⟨1, 0⟩) := by
  obtain ⟨heap, ran, added, first, roomy⟩ := run_flagRecord
  have present : heap.stored ⟨1, 0⟩ =
      some (stampVersion flagBytes 1 {}) := by rw [added.stored_eq, update_self]
  have length : flagBytes.length = 41 := by decide +kernel
  obtain ⟨object, next, middle, stepped, objectId, active, marked, second, nextFirst, last⟩ :=
    @TransactionalHeap.step_update_of_roomy onePage ⟨firstWriter, heap⟩ 1 391 1
      roomy { id := 1, isoLevel := .repeatableRead } (AList.lookup_insert _) rfl
      rfl ⟨1, 0⟩ first.symm _ flagBytes present
      (Or.inl (by rw [readMvcc_flagVersion])) flagLayout flagRecord
      serialize_flagRecord (by rw [length]; decide)
  rw [first] at second nextFirst
  rw [length] at last
  refine ⟨object, next, ?_, objectId, active, nextFirst, last, ?_, ?_⟩
  · rw [run_append, ran]
    exact stepped
  · rw [second.stored_eq, update_of_ne (by decide), marked.stored_eq, update_self]
  · rw [second.stored_eq, update_self]

theorem now_run_initial (supply : PageSupply) (steps : List HeapStep) :
    (run supply steps).now = TransactionalHeap.run supply steps :=
  now_run steps

/-- The inserted version has no replacement, and its creator replaces it. -/
theorem flagUpdate_replacesKnown :
    GuardedRuns.Along (step onePage) ReplacesKnown (initial onePage)
      (firstInsert flagLayout flagRecord ++ [flagUpdate]) := by
  refine ⟨trivial, trivial, ?_, trivial⟩
  change ReplacesKnown (run onePage (firstInsert flagLayout flagRecord)) _
  obtain ⟨heap, ran, added, _⟩ := run_flagRecord
  have versions : (run onePage
      (firstInsert flagLayout flagRecord)).now.heap.versions =
        Function.update (fun _ => none) ⟨1, 0⟩ (some (TableHeap.version
          (stampVersion flagBytes 1 {}))) := by
    rw [now_run_initial, ran]
    rw [TableHeap.versions_update _ heap ⟨1, 0⟩ _ added.stored_eq]
    congr 1
    funext id
    rw [TableHeap.versions, (create_wellFormed onePage).2]
    rfl
  constructor
  · rintro other ⟨version, present, link⟩
    rw [versions] at present
    by_cases same : other = ⟨1, 0⟩
    · rw [same, update_self] at present
      cases present
      rw [TableHeap.version, readMvcc_flagVersion] at link
      rw [RecordID.link_default] at link
      contradiction
    · rw [update_of_ne same] at present
      contradiction
  intro version present
  rw [versions, update_self] at present
  cases present
  left
  rw [TableHeap.version, readMvcc_flagVersion]

/-- After one update the replacement is the only visible version. -/
theorem visible_version_unique_replaced :
    ∃ bytes, (run onePage (firstInsert flagLayout flagRecord ++
        [flagUpdate])).now.heap.stored ⟨1, 1⟩ = some bytes ∧
      isVisible (run onePage (firstInsert flagLayout flagRecord ++
          [flagUpdate])).now.manager.registry (readMvcc bytes)
        (run onePage (firstInsert flagLayout flagRecord)).now.manager.createSnapshot 1 = true ∧
      ∀ second two, Descends (run onePage (firstInsert flagLayout flagRecord ++
          [flagUpdate])).now.heap.versions ⟨1, 0⟩ second →
        (run onePage (firstInsert flagLayout flagRecord ++
          [flagUpdate])).now.heap.stored second = some two →
        isVisible (run onePage (firstInsert flagLayout flagRecord ++
            [flagUpdate])).now.manager.registry (readMvcc two)
          (run onePage (firstInsert flagLayout flagRecord)).now.manager.createSnapshot 1 = true →
        ⟨1, 1⟩ = second := by
  obtain ⟨object, heap, ran, _, _, _, _, _, replaced⟩ := run_flagUpdate
  have stored : (run onePage (firstInsert flagLayout flagRecord ++
      [flagUpdate])).now.heap.stored ⟨1, 1⟩ = some (stampVersion flagBytes 1 ⟨1, 0⟩) := by
    rw [now_run_initial, ran]
    exact replaced
  have visible : isVisible (run onePage (firstInsert flagLayout flagRecord ++
      [flagUpdate])).now.manager.registry (readMvcc (stampVersion flagBytes 1 ⟨1, 0⟩))
        (run onePage (firstInsert flagLayout flagRecord)).now.manager.createSnapshot 1 = true := by
    rw [readMvcc_flagSuccessor]
    exact isVisible_own _ _ 1 _
  have begun : 1 < (run onePage (firstInsert flagLayout flagRecord)).now.manager.nextTxnId := by
    obtain ⟨_, ran, _⟩ := run_flagRecord
    change 1 < firstWriter.nextTxnId
    decide
  have replaces : Descends (run onePage (firstInsert flagLayout flagRecord ++
      [flagUpdate])).now.heap.versions ⟨1, 0⟩ ⟨1, 1⟩ := by
    refine Relation.ReflTransGen.single ⟨_, versions_of_stored stored, ?_⟩
    rfl
  refine ⟨_, stored, visible, fun second two secondOf secondStored seen => ?_⟩
  exact visible_version_unique onePage (firstInsert flagLayout flagRecord) [flagUpdate]
    (by rw [now_run_initial]; exact TransactionalHeap.fits_of_length (by decide))
    flagUpdate_replacesKnown 1 begun ⟨1, 0⟩ ⟨1, 1⟩ second _ two replaces secondOf
    stored secondStored visible seen

/-- A transaction that replaces a version twice sees both replacements. -/
theorem replaced_twice_visible :
    let state := TransactionalHeap.run onePage
      (firstInsert flagLayout flagRecord ++ [flagUpdate] ++ [flagUpdate])
    ∃ one two, state.heap.stored ⟨1, 1⟩ = some one ∧ state.heap.stored ⟨1, 2⟩ = some two ∧
      Descends state.heap.versions ⟨1, 0⟩ ⟨1, 1⟩ ∧
      Descends state.heap.versions ⟨1, 0⟩ ⟨1, 2⟩ ∧
      isVisible state.manager.registry (readMvcc one) state.manager.createSnapshot 1 = true ∧
      isVisible state.manager.registry (readMvcc two) state.manager.createSnapshot 1 = true := by
  intro state
  obtain ⟨object, heap, ran, objectId, active, first, roomy, old, replaced⟩ :=
    run_flagUpdate
  have length : flagBytes.length = 41 := by decide +kernel
  have size : byteSize ≤ (stampVersion flagBytes 1 {}).length := by
    exact byteSize_le_flagBytes
  obtain ⟨later, next, middle, stepped, _, _, marked, second, _, _⟩ :=
    @TransactionalHeap.step_update_of_roomy onePage
      { manager :=
          { firstWriter with
            transactions := firstWriter.transactions.insert 1 object }
        heap := heap } 2 338 1 roomy object (AList.lookup_insert _) active
      objectId ⟨1, 0⟩ first.symm _ flagBytes old
      (Or.inr (by
        rw [RecordHeader.readMvcc_writeXmax size (by decide),
          readMvcc_flagVersion])) flagLayout flagRecord
      serialize_flagRecord (by rw [length]; decide)
  rw [first] at second
  have reached : state.heap = next := by
    have whole : state = _ := run_append onePage _ _
    rw [whole, ran]
    exact congrArg TransactionalHeap.heap stepped
  have oneStored : next.stored ⟨1, 1⟩ = some (stampVersion flagBytes 1 ⟨1, 0⟩) := by
    rw [second.stored_eq, update_of_ne (by decide), marked.stored_eq,
      update_of_ne (by decide), replaced]
  have twoStored : next.stored ⟨1, 2⟩ = some (stampVersion flagBytes 1 ⟨1, 0⟩) := by
    rw [second.stored_eq, update_self]
  have replaces (id : RecordID) (stored : next.stored id =
      some (stampVersion flagBytes 1 ⟨1, 0⟩)) :
      Descends next.versions ⟨1, 0⟩ id := by
    refine Relation.ReflTransGen.single ⟨_, versions_of_stored stored, ?_⟩
    rfl
  rw [reached]
  refine ⟨_, _, oneStored, twoStored, replaces _ oneStored,
    replaces _ twoStored, ?_, ?_⟩ <;>
  · rw [readMvcc_flagSuccessor]
    exact isVisible_own _ _ 1 _

end HeapHistory

end KlyroDB
