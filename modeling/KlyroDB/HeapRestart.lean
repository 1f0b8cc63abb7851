import KlyroDB.TransactionalHeap

/-!
# A restart over the same heap pages

After a restart the heap pages are as before, while the registry is empty and
identifiers start again.  What was committed is no longer visible, until new
transactions get the old identifiers and pass for the creators.
-/

namespace KlyroDB

open RecordHeader (readMvcc)

namespace TransactionalHeap

def restart (state : TransactionalHeap) : TransactionalHeap where
  heap := state.heap

section Restart

variable {supply : PageSupply} {state : TransactionalHeap}

theorem Sound.restart (sound : Sound supply state) : Sound supply state.restart :=
  ⟨TransactionManager.consistent_initial, sound.wellFormed, sound.sized, sound.chained⟩

/-- The version is committed and not deleted. -/
def Live (registry : TransactionRegistry) (header : MVCCHeader) : Prop :=
  registry.isCommitted header.xmin = true ∧ ¬ (header.xmax ≠ invalidTransactionID ∧
    registry.isCommitted header.xmax = true)

/-- What a restart should keep: versions that were live before it are visible
to every transaction under every snapshot taken later, unless they were marked
since, and versions of transactions that had not committed are never
visible. -/
structure Survives (supply : PageSupply) (state : TransactionalHeap) : Prop where
  live_visible : ∀ first second, (GuardedRuns.run (step supply) state.restart
    (first ++ second)).Fits → ∀ id early late, state.heap.stored id = some early → Live
    state.manager.registry (readMvcc early) → (GuardedRuns.run (step supply)
    state.restart (first ++ second)).heap.stored id = some late → (readMvcc late).xmax
    = (readMvcc early).xmax → ∀ reader, (GuardedRuns.run (step supply) state.restart
    first).Issued reader → isVisible (GuardedRuns.run (step supply) state.restart
    (first ++ second)).manager.registry (readMvcc late) (GuardedRuns.run (step supply)
    state.restart first).manager.createSnapshot reader = true
  dead_hidden : ∀ first second, (GuardedRuns.run (step supply) state.restart (first ++ second)).Fits
    → ∀ id early late, state.heap.stored id = some early → state.manager.registry.isCommitted
    (readMvcc early).xmin = false → (GuardedRuns.run (step supply) state.restart
    (first ++ second)).heap.stored id = some late → ∀ reader, (GuardedRuns.run (step supply)
    state.restart first).Issued reader → isVisible (GuardedRuns.run (step supply) state.restart
    (first ++ second)).manager.registry (readMvcc late) (GuardedRuns.run (step supply)
    state.restart first).manager.createSnapshot reader = false

def begins (count : Nat) : List HeapStep :=
  List.replicate count (.call (.begin .repeatableRead .absent))

theorem run_begins (supply : PageSupply) (state : TransactionalHeap) (count : Nat) :
    let later := GuardedRuns.run (step supply) state.restart (begins count)
    later.heap = state.heap ∧ later.manager.nextTxnId = count + 1 ∧
      ∀ id, later.manager.registry.isCommitted id = false := by
  induction count with
  | zero => exact ⟨rfl, rfl, fun id => rfl⟩
  | succ count ih =>
    obtain ⟨heap, counter, uncommitted⟩ := ih
    have last : GuardedRuns.run (step supply) state.restart (begins (count + 1)) = step supply
        (GuardedRuns.run (step supply) state.restart (begins count))
        (.call (.begin .repeatableRead .absent)) := by
      rw [begins, List.replicate_succ', GuardedRuns.run_append]
      rfl
    rw [last]
    refine ⟨heap, ?_, ?_⟩
    · change _ + 1 = _
      rw [counter]
    intro id
    change TransactionRegistry.isCommitted (TransactionRegistry.registerTransaction _ _) id = false
    rw [TransactionRegistry.isCommitted, TransactionRegistry.getState, beq_eq_false_iff_ne]
    by_cases same : id = (GuardedRuns.run (step supply) state.restart
        (begins count)).manager.nextTxnId
    · rw [same, TransactionRegistry.lookup_registerTransaction]
      simp
    · rw [TransactionRegistry.lookup_registerTransaction_ne _ _ same]
      exact beq_eq_false_iff_ne.mp (uncommitted id)

theorem begins_issued (supply : PageSupply) (state : TransactionalHeap)
    {count id : Nat} (positive : 1 ≤ id) (begun : id ≤ count) :
    (GuardedRuns.run (step supply) state.restart (begins count)).Issued id := by
  refine ⟨positive, ?_⟩
  rw [(run_begins supply state count).2.1]
  omega

/-- While nothing has committed, a version is visible to its creator only. -/
theorem isVisible_of_uncommitted {registry : TransactionRegistry}
    (uncommitted : ∀ id, registry.isCommitted id = false)
    (header : MVCCHeader) (snapshot : Snapshot) (reader : Nat) :
    isVisible registry header snapshot reader = true ↔
      header.xmin = reader ∧ (header.xmax = invalidTransactionID ∨ header.xmax ≠ reader) := by
  rw [isVisible]
  simp only [uncommitted, ite_self]
  by_cases own : header.xmin = reader
  · by_cases unmarked : header.xmax = invalidTransactionID
    · simp [own, unmarked]
    · by_cases deleted : header.xmax = reader
      · simp [own, deleted]
      · simp [own, deleted]
  · simp [own]

theorem not_isVisible_of_self_deleted (registry : TransactionRegistry)
    (header : MVCCHeader) (snapshot : Snapshot) (reader : Nat)
    (marked : header.xmax ≠ invalidTransactionID) (same : header.xmax = header.xmin) :
    isVisible registry header snapshot reader = false := by
  rw [isVisible, same]
  rw [same] at marked
  rw [if_neg marked]
  generalize (if header.xmin = reader then true else if snapshot.isActive header.xmin then false
    else registry.isCommitted header.xmin) = seen
  cases seen <;> rfl

end Restart

/-- A restart keeps what it should exactly if the heap holds no live version
and every version of an unfinished or aborted transaction was deleted by that
transaction itself. -/
theorem survives_restart_iff (supply : PageSupply) (steps : List HeapStep)
    (fits : (run supply steps).Fits) :
    Survives supply (run supply steps) ↔
      ∀ id bytes, (run supply steps).heap.stored id = some bytes →
        ¬ Live (run supply steps).manager.registry (readMvcc bytes) ∧
          ((run supply steps).manager.registry.isCommitted (readMvcc bytes).xmin = false →
            (readMvcc bytes).xmax = (readMvcc bytes).xmin) := by
  have sound := sound_run fits
  have authored := authored_run fits
  generalize run supply steps = state at fits sound authored ⊢
  constructor
  · intro survives id bytes present
    have creator := (authored id _ (TableHeap.versions_of_stored present)).1
    change state.Issued (readMvcc bytes).xmin at creator
    constructor
    · intro live
      have stays (reader : Nat) (positive : 1 ≤ reader) (begun : reader ≤ 2) :
          (readMvcc bytes).xmin = reader := by
        obtain ⟨heap, counter, uncommitted⟩ := run_begins supply state 2
        have seen := survives.live_visible (begins 2) [] (by
            rw [List.append_nil, Fits, counter]
            decide) id bytes bytes present live
          (by
            rw [List.append_nil, heap]
            exact present) rfl reader
          (begins_issued supply state positive begun)
        rw [List.append_nil, isVisible_of_uncommitted uncommitted] at seen
        exact seen.1
      have first := stays 1 le_rfl (by decide)
      have second := stays 2 (by decide) le_rfl
      omega
    intro unfinished
    by_contra different
    obtain ⟨creatorTxn, creatorId⟩ : ∃ txn, (readMvcc bytes).xmin = txn := ⟨_, rfl⟩
    rw [creatorId] at creator different
    obtain ⟨heap, counter, uncommitted⟩ := run_begins supply state creatorTxn
    have hidden := survives.dead_hidden (begins creatorTxn) [] (by
        rw [List.append_nil, Fits, counter]
        exact creator.2.trans_le fits) id bytes bytes present unfinished
      (by
        rw [List.append_nil, heap]
        exact present) creatorTxn
      (begins_issued supply state creator.1 le_rfl)
    rw [List.append_nil, Bool.eq_false_iff, Ne, isVisible_of_uncommitted uncommitted] at hidden
    exact hidden ⟨creatorId, Or.inr different⟩
  intro condition
  constructor
  · intro first second _ id early late present live
    exact absurd live (condition id early present).1
  intro first second laterFits id early late present unfinished there reader begun
  have same := (condition id early present).2 unfinished
  have creator := (authored id _ (TableHeap.versions_of_stored present)).1
  have marked : (readMvcc early).xmax ≠
      invalidTransactionID := by
    rw [same, invalidTransactionID]
    exact Nat.one_le_iff_ne_zero.mp creator.1
  obtain ⟨found, stored, createdBy, marks⟩ := sound.restart.stored_run _ laterFits present
  rw [there] at stored
  cases stored
  refine not_isVisible_of_self_deleted _ _ _ _ ?_ ?_
  · rw [marks marked]
    exact marked
  · rw [marks marked, same, createdBy]

/-- The first transaction erases its own record again. -/
def insertedAndErased : List HeapStep :=
  firstInsert flagLayout flagRecord ++ [.erase 1 ⟨1, 0⟩ none]

/-- A restart does no harm to a record that was erased by its creator. -/
theorem survives_restart_erased : Survives onePage (run onePage insertedAndErased) := by
  refine (survives_restart_iff onePage insertedAndErased (fits_of_length (by decide))).mpr ?_
  obtain ⟨heap, ran, added, _⟩ := run_flagRecord
  have start := sound_run (show (run onePage (firstInsert flagLayout
    flagRecord)).Fits from fits_of_length (by decide))
  rw [ran] at start
  have size : RecordHeader.byteSize ≤ (TableHeap.stampVersion flagBytes 1 {}).length := by
    rw [TableHeap.length_stampVersion]
    exact byteSize_le_flagBytes
  have present : heap.stored ⟨1, 0⟩ = some (TableHeap.stampVersion flagBytes 1 {}) := by
    rw [added.stored_eq, Function.update_self]
  obtain ⟨call, bytes, erased, owner, marked⟩ := start.wellFormed.erase_of_markable
    { id := 1, isoLevel := .repeatableRead } ⟨1, 0⟩ none ⟨_, present, size, Or.inl
    (by rw [readMvcc_flagVersion])⟩
  have sameBytes := marked.present
  rw [present] at sameBytes
  cases sameBytes
  have final : run onePage insertedAndErased = ⟨{ firstWriter with
          transactions := firstWriter.transactions.insert 1 call.transaction },
        call.heap⟩ := by
    rw [insertedAndErased, run_append, ran]
    change step onePage ⟨firstWriter, heap⟩ (.erase 1 ⟨1, 0⟩ none) = _
    rw [step, write_of_active (AList.lookup_insert _) rfl, erased]
  rw [final]
  intro id found there
  dsimp only at there ⊢
  have only : id = ⟨1, 0⟩ := by
    by_contra other
    rw [marked.stored_eq, Function.update_of_ne other, added.stored_eq,
      Function.update_of_ne other] at there
    have empty := stored_initial onePage id
    rw [initial, there] at empty
    exact Option.some_ne_none found empty
  rw [only, marked.stored_eq, Function.update_self] at there
  cases there
  rw [RecordHeader.readMvcc_writeXmax size (by decide), readMvcc_flagVersion]
  refine ⟨?_, fun _ => rfl⟩
  rintro ⟨committed, _⟩
  exact absurd committed (by decide)

/-- After the restart a committed record is not visible, and a record that
was never committed is. -/
theorem restart_changes_visibility :
    (run onePage (firstInsert flagLayout flagRecord ++
        [.call (.commit (some 1) .absent)])).manager.registry.isCommitted 1 = true ∧
      (∃ bytes, (GuardedRuns.run (step onePage) (run onePage (firstInsert flagLayout flagRecord ++
            [.call (.commit (some 1) .absent)])).restart
          (begins 2)).heap.stored ⟨1, 0⟩ = some bytes ∧
        readMvcc bytes = ⟨1, invalidTransactionID, {}⟩ ∧
        isVisible (GuardedRuns.run (step onePage) (run onePage (firstInsert flagLayout flagRecord ++
              [.call (.commit (some 1) .absent)])).restart
            (begins 2)).manager.registry (readMvcc bytes)
          (GuardedRuns.run (step onePage) (run onePage (firstInsert flagLayout flagRecord ++
              [.call (.commit (some 1) .absent)])).restart
            (begins 2)).manager.createSnapshot 2 = false) ∧
      (run onePage (firstInsert flagLayout flagRecord)).manager.registry.isCommitted 1 = false ∧
      ∃ bytes, (GuardedRuns.run (step onePage) (run onePage
          (firstInsert flagLayout flagRecord)).restart (begins 1)).heap.stored ⟨1, 0⟩ = some bytes ∧
        readMvcc bytes = ⟨1, invalidTransactionID, {}⟩ ∧
        isVisible (GuardedRuns.run (step onePage) (run onePage
            (firstInsert flagLayout flagRecord)).restart
            (begins 1)).manager.registry (readMvcc bytes)
          (GuardedRuns.run (step onePage) (run onePage (firstInsert flagLayout flagRecord)).restart
            (begins 1)).manager.createSnapshot 1 = true := by
  obtain ⟨heap, ran, added, _⟩ := run_flagRecord
  have present : heap.stored ⟨1, 0⟩ = some (TableHeap.stampVersion flagBytes 1 {}) := by
    rw [added.stored_eq, Function.update_self]
  have committed : run onePage (firstInsert flagLayout flagRecord ++
      [.call (.commit (some 1) .absent)]) = ⟨firstWriter.step (.commit (some 1) .absent), heap⟩ :=
      by
    rw [run_append, ran]
    rfl
  have known : (firstWriter.step (.commit (some 1) .absent)).registry.isCommitted 1 = true := by
    decide
  have unknown : firstWriter.registry.isCommitted 1 = false := by decide
  rw [committed, ran]
  refine ⟨known, ⟨_, ?_, readMvcc_flagVersion, ?_⟩, unknown, _, ?_, readMvcc_flagVersion, ?_⟩
  · rw [(run_begins onePage _ 2).1]
    exact present
  · rw [Bool.eq_false_iff, Ne, isVisible_of_uncommitted
      (run_begins onePage _ 2).2.2, readMvcc_flagVersion]
    decide
  · rw [(run_begins onePage _ 1).1]
    exact present
  · rw [isVisible_of_uncommitted (run_begins onePage _ 1).2.2, readMvcc_flagVersion]
    decide

end TransactionalHeap

end KlyroDB
