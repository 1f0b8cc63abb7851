import KlyroDB.TransactionalHeap

/-!
# What an abort leaves behind

`TransactionManager::abort` restores nothing.  Readers do not notice, since an
aborted transaction is never seen; writers find its marks and cannot update or
erase the marked versions any more.
-/

namespace KlyroDB

open RecordHeader (readMvcc)
open TransactionRegistry (getState lookup_registerTransaction_ne lookup_updateState
  registerTransaction updateState)

namespace MVCCHeader

def without (header : MVCCHeader) (writer : Nat) : Option MVCCHeader :=
  if header.xmin = writer then none
  else if header.xmax = writer then
    some { header with xmax := invalidTransactionID }
  else some header

end MVCCHeader

/-- The writes of a transaction that is neither committed nor the reader do
not matter to the reader. -/
theorem isVisible_eq_without {registry : TransactionRegistry} {writer : Nat}
    (uncommitted : registry.isCommitted writer = false)
    (issued : writer ≠ invalidTransactionID) (header : MVCCHeader)
    (snapshot : Snapshot) {reader : Nat} (other : writer ≠ reader) :
    isVisible registry header snapshot reader = (header.without writer).any fun before =>
        isVisible registry before snapshot reader := by
  have unseen : (if writer = reader then true else if snapshot.isActive writer then false else
      registry.isCommitted writer) = false := by rw [if_neg other, uncommitted, ite_self]
  rw [MVCCHeader.without]
  by_cases created : header.xmin = writer
  · rw [if_pos created, Option.any_none, isVisible, created]
    rw [unseen]
    rfl
  rw [if_neg created]
  by_cases deleted : header.xmax = writer
  · rw [if_pos deleted, Option.any_some, isVisible, isVisible, deleted]
    rw [unseen, if_neg issued, if_pos rfl]
    rfl
  · rw [if_neg deleted, Option.any_some]

namespace TransactionManager

theorem Consistent.abort_ok {manager : TransactionManager}
    (consistent : manager.Consistent) {id : Nat} {abortWal endWal : WalReply}
    (returned : (manager.abort (some id) abortWal endWal).2 = .returned .ok) :
    manager.registry.lookup id = some .active ∧
      (manager.abort (some id) abortWal endWal).1.registry.lookup id = some .aborted ∧
      (manager.abort (some id) abortWal endWal).1.nextTxnId = manager.nextTxnId := by
  rw [abort] at returned ⊢
  cases found : manager.target (some id) with
  | none =>
    rw [found] at returned
    simp at returned
  | some txn =>
    rw [found] at returned
    obtain ⟨sameId, registered⟩ := consistent.object_state id txn found
    dsimp only at returned ⊢
    by_cases active : txn.state = .active
    · rw [if_neg (not_not_intro active)] at returned ⊢
      rw [active] at registered
      refine ⟨registered, ?_⟩
      rw [← sameId] at registered ⊢
      have ended := lookup_updateState manager.registry .aborted registered
      cases abortWal with
      | throws => simp at returned
      | absent => exact ⟨ended, rfl⟩
      | appended lsn =>
        cases endWal with
        | throws => simp at returned
        | absent | appended _ => exact ⟨ended, rfl⟩
    · rw [if_pos active] at returned
      simp at returned

end TransactionManager

namespace TableHeap

structure Writable (heap : TableHeap) (transaction : Transaction) (id : RecordID) : Prop where
  update : ∀ layout record markLsn insertLsn, (TableHeap.update layout heap transaction id record
    markLsn insertLsn).1 ≠ .error (.status .transactionAborted)
  erase : ∀ lsn, (TableHeap.erase heap transaction id lsn).1 ≠ .error (.status .transactionAborted)

theorem WellFormed.writable_iff {supply : PageSupply} {heap : TableHeap}
    (wf : WellFormed supply heap) (txn : Transaction) (id : RecordID) :
    Writable heap txn id ↔ ¬ Conflict heap txn.id id := by
  constructor
  · intro writable conflict
    exact writable.erase none ((wf.erase_aborted_iff txn id none).mpr conflict)
  intro free
  constructor
  · intro layout record markLsn insertLsn refused
    exact free ((wf.update layout txn id record markLsn insertLsn).2.1.mp refused)
  · intro lsn refused
    exact free ((wf.erase_aborted_iff txn id lsn).mp refused)

end TableHeap

namespace TransactionalHeap

/-- What an abort at the end of `steps` should achieve for a version: later
transactions see of every version what they would see without the writes of
the aborted transaction, and they can update and erase the version as long as
no other mark was put on it since. -/
structure Restored (supply : PageSupply) (steps : List HeapStep)
    (aborted : Nat) (id : RecordID) : Prop where
  visible : ∀ first second, (run supply (steps ++ first ++ second)).Fits →
    ∀ reader, (run supply steps).manager.nextTxnId ≤ reader →
      ∀ other bytes,
        (run supply (steps ++ first ++ second)).heap.stored other = some bytes →
        isVisible (run supply (steps ++ first ++ second)).manager.registry
            (readMvcc bytes)
            (run supply (steps ++ first)).manager.createSnapshot reader =
          ((readMvcc bytes).without aborted).any fun header =>
            isVisible (run supply (steps ++ first ++ second)).manager.registry
              header (run supply (steps ++ first)).manager.createSnapshot
              reader
  writable : ∀ further, (run supply (steps ++ further)).Fits → ∀ writer transaction,
    (run supply steps).manager.nextTxnId ≤ writer → (run supply (steps ++
    further)).manager.transactions.lookup writer = some transaction → transaction.state = .active →
    (∀ early late, (run supply steps).heap.stored id = some early →
    (run supply (steps ++ further)).heap.stored id = some late → (readMvcc late).xmax =
    (readMvcc early).xmax) → TableHeap.Writable (run supply (steps ++ further)).heap
    transaction id

section Aborts

variable {supply : PageSupply} {before : List HeapStep} {aborted : Nat} {abortWal endWal : WalReply}

theorem run_abort (supply : PageSupply) (before : List HeapStep)
    (aborted : Nat) (abortWal endWal : WalReply) :
    run supply (before ++ [.call (.abort (some aborted) abortWal endWal)]) =
      { run supply before with
        manager := ((run supply before).manager.abort (some aborted) abortWal endWal).1 } :=
  run_append supply before _

/-- An aborted transaction is not committed in any later state. -/
theorem not_committed_of_aborted {steps further : List HeapStep}
    (fits : (run supply (steps ++ further)).Fits)
    (ended : (run supply steps).manager.registry.lookup aborted = some .aborted) :
    (run supply (steps ++ further)).manager.registry.isCommitted aborted = false := by
  have still := (progress_run fits).settled aborted .aborted ended (by simp)
  rw [TransactionRegistry.isCommitted, getState, still]
  rfl

/-- An abort restores a version for later transactions exactly if nobody has
marked it. -/
theorem abort_restores_iff (supply : PageSupply) (before : List HeapStep)
    (room : (run supply before).manager.nextTxnId < 2 ^ 64)
    (aborted : Nat) (abortWal endWal : WalReply)
    (returned : ((run supply before).manager.abort (some aborted) abortWal
      endWal).2 = .returned .ok) (id : RecordID) (bytes : List UInt8)
    (present : (run supply before).heap.stored id = some bytes) :
    Restored supply (before ++ [.call (.abort (some aborted) abortWal endWal)]) aborted id ↔
      (readMvcc bytes).xmax = invalidTransactionID := by
  have sound := sound_run (show (run supply before).Fits from room.le)
  obtain ⟨active, ended, counter⟩ := sound.consistent.abort_ok returned
  obtain ⟨positive, below⟩ := (sound.consistent.registered_iff aborted).mp
    (TransactionManager.mem_registry_of_lookup active)
  have after := run_abort supply before aborted abortWal endWal
  generalize before ++ [HeapStep.call (.abort (some aborted) abortWal endWal)] = steps at after ⊢
  have stored : (run supply steps).heap.stored id = some bytes := by
    rw [after]
    exact present
  have next : (run supply steps).manager.nextTxnId = (run supply before).manager.nextTxnId := by
    rw [after]
    exact counter
  constructor
  · intro restored
    by_contra marked
    have fits : (run supply (steps ++ [.call (.begin .repeatableRead .absent)])).Fits := by
      rw [run_append]
      change (run supply steps).manager.nextTxnId + 1 ≤ 2 ^ 64
      omega
    have stayed : (run supply (steps ++ [.call (.begin .repeatableRead .absent)])).heap =
        (run supply steps).heap := by
      rw [run_append]
      rfl
    have writable := restored.writable _ fits (run supply steps).manager.nextTxnId
      { id := (run supply steps).manager.nextTxnId
        isoLevel := .repeatableRead } le_rfl
      (by
        rw [run_append]
        exact AList.lookup_insert _) rfl
      (by
        intro early late first second
        rw [stayed, first] at second
        cases second
        rfl)
    have later := sound_run fits
    rw [later.wellFormed.writable_iff, stayed] at writable
    refine writable ⟨bytes, stored, ?_, marked, ?_⟩
    · exact sound.sized id bytes present
    · have issued := (authored_run (show (run supply before).Fits from room.le) id _
        (TableHeap.versions_of_stored present)).2 _ (if_neg marked)
      rw [next]
      exact issued.2.ne
  intro unmarked
  constructor
  · intro first second fits reader begun other found here
    refine isVisible_eq_without ?_ ?_ _ _ ?_
    · rw [List.append_assoc] at fits ⊢
      refine not_committed_of_aborted fits ?_
      rw [after]
      exact ended
    · rw [invalidTransactionID]
      omega
    · omega
  intro further fits writer transaction begun found running same
  rw [(sound_run fits).wellFormed.writable_iff]
  rintro ⟨late, there, _, marked, _⟩
  rw [same bytes late stored there] at marked
  exact marked unmarked

end Aborts

theorem run_readerBegun :
    ∃ heap manager, run onePage readerBegun = ⟨manager, heap⟩ ∧ manager.nextTxnId = 3 ∧
      manager.transactions.lookup 2 = some { id := 2, isoLevel := .repeatableRead } ∧
      manager.registry.lookup 1 = some .committed ∧
      manager.registry.lookup 2 = some .active ∧
      heap.stored ⟨1, 0⟩ = some (TableHeap.stampVersion flagBytes 1 {}) := by
  obtain ⟨heap, ran, added, _⟩ := run_flagRecord
  have begun : run onePage readerBegun = ⟨(firstWriter.step (.commit (some 1) .absent)).step
      (.begin .repeatableRead .absent), heap⟩ := by
    rw [readerBegun, run_append, ran]
    rfl
  refine ⟨heap, _, begun, by decide, by decide, by decide, by decide, ?_⟩
  rw [added.stored_eq, Function.update_self]

/-- The second transaction is aborted without having written. -/
theorem abort_restores_untouched :
    Restored onePage (readerBegun ++ [.call (.abort (some 2) .absent .absent)]) 2 ⟨1, 0⟩ := by
  obtain ⟨heap, manager, ran, counter, found, _, _, present⟩ := run_readerBegun
  refine (abort_restores_iff onePage readerBegun ?_ 2 .absent .absent ?_ ⟨1, 0⟩
    (TableHeap.stampVersion flagBytes 1 {}) ?_).mpr ?_
  · rw [ran, counter]
    decide
  · rw [ran, TransactionManager.abort, TransactionManager.target, Option.bind_some, found]
    rfl
  · rw [ran]
    exact present
  · rw [readMvcc_flagVersion]

/-- The second transaction erases the version and is aborted, and a third one
begins. -/
def erasureAborted : List HeapStep :=
  readerBegun ++ [.erase 2 ⟨1, 0⟩ none, .call (.abort (some 2) .absent .absent), .call
    (.begin .repeatableRead .absent)]

/-- The third transaction can neither update nor erase the committed
version. -/
theorem erasure_aborted_conflict :
    ∃ transaction, (run onePage erasureAborted).manager.transactions.lookup 3 =
        some transaction ∧ transaction.state = .active ∧
      (run onePage erasureAborted).manager.registry.lookup 1 = some .committed ∧
      (run onePage erasureAborted).manager.registry.lookup 2 = some .aborted ∧
      (TableHeap.update flagLayout (run onePage erasureAborted).heap
        transaction ⟨1, 0⟩ flagRecord none none).1 = .error (.status .transactionAborted) ∧
      (TableHeap.erase (run onePage erasureAborted).heap transaction ⟨1, 0⟩
        none).1 = .error (.status .transactionAborted) := by
  obtain ⟨heap, manager, ran, counter, found, committed, active, present⟩ := run_readerBegun
  have fits : (run onePage readerBegun).Fits := fits_of_length (by decide)
  have sound := sound_run fits
  rw [ran] at sound
  have size := sound.sized ⟨1, 0⟩ _ present
  obtain ⟨call, bytes, erased, owner, marked⟩ := sound.wellFormed.erase_of_markable
    { id := 2, isoLevel := .repeatableRead } ⟨1, 0⟩ none ⟨_, present, size, Or.inl
    (by rw [readMvcc_flagVersion])⟩
  have sameBytes := marked.present
  rw [present] at sameBytes
  cases sameBytes
  have written : step onePage ⟨manager, heap⟩ (.erase 2 ⟨1, 0⟩ none) = ⟨{ manager with
          transactions := manager.transactions.insert 2 call.transaction },
        call.heap⟩ := by rw [step, write_of_active found rfl, erased]
  have aborted : TransactionManager.abort { manager with
        transactions := manager.transactions.insert 2 call.transaction }
      (some 2) .absent .absent = (TransactionManager.finish { manager with
            transactions := manager.transactions.insert 2 call.transaction }
          call.transaction .aborted, .returned .ok) := by
    rw [TransactionManager.abort, TransactionManager.target, Option.bind_some, AList.lookup_insert]
    dsimp only
    rw [if_neg (not_not_intro owner.state_eq)]
  have final : run onePage erasureAborted = ⟨TransactionManager.step (TransactionManager.finish {
      manager with
            transactions := manager.transactions.insert 2 call.transaction }
          call.transaction .aborted) (.begin .repeatableRead .absent),
        call.heap⟩ := by
    rw [erasureAborted, run_append, ran]
    change step onePage (step onePage (step onePage ⟨manager, heap⟩ (.erase 2 ⟨1, 0⟩ none)) (.call
      (.abort (some 2) .absent .absent))) (.call (.begin .repeatableRead .absent)) = _
    rw [written]
    dsimp only [step]
    have ended := congrArg Prod.fst aborted
    rw [← TransactionManager.step] at ended
    rw [ended]
  have wellFormed := (sound_run (show (run onePage erasureAborted).Fits from
    fits_of_length (by decide))).wellFormed
  rw [final] at wellFormed ⊢
  have conflict : TableHeap.Conflict call.heap 3 ⟨1, 0⟩ := by
    refine ⟨RecordHeader.writeXmax (TableHeap.stampVersion flagBytes 1 {}) 2, ?_, ?_, ?_, ?_⟩
    · rw [marked.stored_eq, Function.update_self]
    · rw [RecordHeader.length_writeXmax]
      exact size
    · rw [RecordHeader.readMvcc_writeXmax size (by decide)]
      decide
    · rw [RecordHeader.readMvcc_writeXmax size (by decide)]
      decide
  have ownId : call.transaction.id = 2 := owner.id_eq
  refine ⟨{ id := 3, isoLevel := .repeatableRead }, ?_, rfl, ?_, ?_, ?_, ?_⟩
  · change (AList.insert manager.nextTxnId _ _).lookup 3 = _
    rw [counter]
    exact AList.lookup_insert _
  · change (registerTransaction _ manager.nextTxnId _).lookup 1 = _
    rw [counter, lookup_registerTransaction_ne _ _ (by decide)]
    change (updateState _ call.transaction.id _).lookup 1 = _
    rw [ownId, TransactionRegistry.lookup_updateState_ne _ _ (by decide)]
    exact committed
  · change (registerTransaction _ manager.nextTxnId _).lookup 2 = _
    rw [counter, lookup_registerTransaction_ne _ _ (by decide)]
    change (updateState _ call.transaction.id _).lookup 2 = _
    rw [ownId]
    exact lookup_updateState _ _ active
  · exact (wellFormed.update flagLayout _ ⟨1, 0⟩ flagRecord none none).2.1.mpr conflict
  · exact (wellFormed.erase_aborted_iff _ ⟨1, 0⟩ none).mpr conflict

end TransactionalHeap

end KlyroDB
