import KlyroDB.GuardedRuns
import KlyroDB.SnapshotVisibility
import KlyroDB.TableHeapRoom
import KlyroDB.MapUpdates

/-!
# Transactions over a table heap

The transaction manager together with one table heap, driven by calls of
`begin`, `commit` and `abort` and by heap operations of active transactions.
Statements are about runs that stay within 64-bit transaction identifiers.
-/

namespace KlyroDB

open RecordHeader (readMvcc)

structure TransactionalHeap where
  manager : TransactionManager := {}
  heap : TableHeap

/-- A call on the manager, or a heap operation on behalf of a transaction with
the numbers that the log assigns to its records. -/
inductive HeapStep
  | call (call : TransactionCall)
  | insert (writer : Nat) (layout : TupleLayout) (record : Record)
      (order : DescendingSort TablePage.SlotRef.offset) (lsn : Option Nat)
  | update (writer : Nat) (layout : TupleLayout) (id : RecordID)
      (record : Record) (markLsn insertLsn : Option Nat)
  | erase (writer : Nat) (id : RecordID) (lsn : Option Nat)

namespace HeapStep

def actor : HeapStep → Option Nat
  | .call (.begin _ _) => none
  | .call (.commit pointer _) => pointer
  | .call (.abort pointer _ _) => pointer
  | .insert writer _ _ _ _ => some writer
  | .update writer _ _ _ _ _ => some writer
  | .erase writer _ _ => some writer

end HeapStep

namespace TransactionalHeap

/-- A heap operation of an active transaction; no other transaction may
write. -/
def write (state : TransactionalHeap) (writer : Nat)
    (operation : Transaction → TableHeap.Call) : TransactionalHeap :=
  match state.manager.transactions.lookup writer with
  | none => state
  | some transaction =>
      if transaction.state = .active then
        let call := operation transaction
        { manager :=
            { state.manager with
              transactions := state.manager.transactions.insert writer call.transaction }
          heap := call.heap }
      else state

def step (supply : PageSupply) (state : TransactionalHeap) : HeapStep → TransactionalHeap
  | .call call => { state with manager := state.manager.step call }
  | .insert writer layout record order lsn =>
      state.write writer fun transaction =>
        (TableHeap.insert supply layout state.heap transaction record order lsn).2
  | .update writer layout id record markLsn insertLsn =>
      state.write writer fun transaction =>
        (TableHeap.update layout state.heap transaction id record markLsn insertLsn).2
  | .erase writer id lsn =>
      state.write writer fun transaction =>
        (TableHeap.erase state.heap transaction id lsn).2

theorem write_of_active {state : TransactionalHeap} {writer : Nat} {txn : Transaction}
    (found : state.manager.transactions.lookup writer = some txn)
    (active : txn.state = .active)
    (operation : Transaction → TableHeap.Call) :
    state.write writer operation =
      { manager :=
          { state.manager with
            transactions := state.manager.transactions.insert writer (operation txn).transaction }
        heap := (operation txn).heap } := by
  rw [write, found]
  dsimp only
  rw [if_pos active]

theorem counter_call (manager : TransactionManager) (call : TransactionCall) :
    manager.nextTxnId ≤ (manager.step call).nextTxnId ∧
      (manager.step call).nextTxnId ≤ manager.nextTxnId + 1 := by
  have same {after : TransactionManager} (counter : after.nextTxnId = manager.nextTxnId) :
      manager.nextTxnId ≤ after.nextTxnId ∧ after.nextTxnId ≤ manager.nextTxnId + 1 := by omega
  cases call with
  | begin isoLevel wal => cases wal <;> exact ⟨Nat.le_succ _, le_rfl⟩
  | commit pointer wal =>
    rw [TransactionManager.step, TransactionManager.commit]
    cases manager.target pointer with
    | none => exact same rfl
    | some txn =>
      dsimp only
      split_ifs
      · exact same rfl
      · cases wal <;> exact same rfl
  | abort pointer abortWal endWal =>
    rw [TransactionManager.step, TransactionManager.abort]
    cases manager.target pointer with
    | none => exact same rfl
    | some txn =>
      dsimp only
      split_ifs
      · exact same rfl
      · cases abortWal <;> cases endWal <;> exact same rfl

theorem counter_write (state : TransactionalHeap) (writer : Nat)
    (operation : Transaction → TableHeap.Call) :
    (state.write writer operation).manager.nextTxnId = state.manager.nextTxnId := by
  rw [write]
  cases state.manager.transactions.lookup writer with
  | none => rfl
  | some txn =>
    dsimp only
    split_ifs <;> rfl

theorem counter_step (supply : PageSupply) (state : TransactionalHeap) (event : HeapStep) :
    state.manager.nextTxnId ≤ (step supply state event).manager.nextTxnId ∧
      (step supply state event).manager.nextTxnId ≤ state.manager.nextTxnId + 1 := by
  have writing (writer : Nat) (operation : Transaction → TableHeap.Call) :
      state.manager.nextTxnId ≤ (state.write writer operation).manager.nextTxnId ∧
        (state.write writer operation).manager.nextTxnId ≤ state.manager.nextTxnId + 1 := by
    rw [counter_write]
    exact ⟨le_rfl, Nat.le_succ _⟩
  cases event with
  | call call => exact counter_call state.manager call
  | insert | update | erase => exact writing ..

/-- A newly created heap under a newly constructed manager. -/
def initial (supply : PageSupply) : TransactionalHeap where
  heap := TableHeap.create supply

def run (supply : PageSupply) (steps : List HeapStep) : TransactionalHeap :=
  GuardedRuns.run (step supply) (initial supply) steps

/-- The identifiers that were issued fit into 64 bits. -/
def Fits (state : TransactionalHeap) : Prop :=
  state.manager.nextTxnId ≤ 2 ^ 64

structure Sound (supply : PageSupply) (state : TransactionalHeap) : Prop where
  consistent : state.manager.Consistent
  wellFormed : TableHeap.WellFormed supply state.heap
  sized : state.heap.Sized
  chained : VersionStore.Chained state.heap.versions

theorem stored_initial (supply : PageSupply) (id : RecordID) :
    (initial supply).heap.stored id = none :=
  congrFun (TableHeap.create_wellFormed supply).2 id

theorem versions_initial (supply : PageSupply) :
    (initial supply).heap.versions = fun _ => none := by
  funext id
  rw [TableHeap.versions, stored_initial, Option.map_none]

theorem sound_initial (supply : PageSupply) : Sound supply (initial supply) := by
  refine ⟨TransactionManager.consistent_initial, (TableHeap.create_wellFormed supply).1, ?_, ?_⟩
  · intro id bytes present
    rw [stored_initial] at present
    contradiction
  · rw [versions_initial]
    exact VersionStore.chained_empty

inductive StepEffect (supply : PageSupply) (state next : TransactionalHeap)
    (event : HeapStep) : Prop
  | called (call : TransactionCall) (isCall : event = .call call)
      (manager : next.manager = state.manager.step call) (heap : next.heap = state.heap)
  | wrote (writer : Nat) (acts : event.actor = some writer) (active : state.manager.registry.lookup
      writer = some .active) (registry : next.manager.registry = state.manager.registry) (counter :
      next.manager.nextTxnId = state.manager.nextTxnId) (consistent : next.manager.Consistent) (heap
      : TableHeap.Wrote supply writer state.heap next.heap)
  | idle (same : next = state)

section Steps

variable {supply : PageSupply} {state : TransactionalHeap}

/-- A write changes nothing or belongs to an active transaction. -/
theorem Sound.write_cases (sound : Sound supply state) (fits : state.Fits)
    (writer : Nat) (operation : Transaction → TableHeap.Call) :
    state.write writer operation = state ∨
      ∃ txn, txn.id = writer ∧ txn.state = .active ∧
        state.manager.registry.lookup writer = some .active ∧
        writer < 2 ^ 64 ∧ writer ≠ invalidTransactionID ∧
        state.write writer operation =
          { manager :=
              { state.manager with
                transactions := state.manager.transactions.insert writer
                  (operation txn).transaction }
            heap := (operation txn).heap } := by
  cases found : state.manager.transactions.lookup writer with
  | none =>
    left
    rw [TransactionalHeap.write, found]
  | some txn =>
    by_cases active : txn.state = .active
    · obtain ⟨sameId, registered⟩ :=
        sound.consistent.object_state writer txn found
      obtain ⟨positive, below⟩ := (sound.consistent.registered_iff writer).mp
        (TransactionManager.mem_registry_of_lookup registered)
      rw [active] at registered
      exact Or.inr ⟨txn, sameId, active, registered,
        lt_of_lt_of_le below fits, by rw [invalidTransactionID]; omega,
        write_of_active found active operation⟩
    · left
      rw [TransactionalHeap.write, found]
      dsimp only
      rw [if_neg active]

theorem StepEffect.write {event : HeapStep} (sound : Sound supply state)
    (fits : state.Fits) {writer : Nat} (acts : event.actor = some writer)
    {operation : Transaction → TableHeap.Call}
    (writes : ∀ txn, txn.id = writer → writer < 2 ^ 64 → writer ≠ invalidTransactionID →
      TableHeap.SameOwner txn (operation txn).transaction ∧
        TableHeap.Wrote supply txn.id state.heap (operation txn).heap) :
    StepEffect supply state (state.write writer operation) event := by
  rcases sound.write_cases fits writer operation with same |
    ⟨txn, sameId, active, registered, small, issued, result⟩
  · exact .idle same
  obtain ⟨owner, wrote⟩ := writes txn sameId small issued
  rw [sameId] at wrote
  rw [result]
  refine .wrote writer acts registered rfl rfl ?_ wrote
  refine ⟨sound.consistent.next_pos, sound.consistent.registered_iff, ?_⟩
  intro id object lookup
  rcases AList.lookup_insert_cases lookup with ⟨rfl, rfl⟩ | ⟨-, lookup⟩
  · rw [owner.id_eq, owner.state_eq, active]
    exact ⟨sameId, registered⟩
  · exact sound.consistent.object_state id object lookup

theorem Sound.stepEffect (sound : Sound supply state) (fits : state.Fits) (event : HeapStep) :
    StepEffect supply state (step supply state event) event := by
  cases event with
  | call call => exact .called call rfl rfl rfl
  | insert writer layout record order lsn =>
    refine StepEffect.write sound fits rfl ?_
    intro txn sameId small issued
    exact sound.wellFormed.insert_wrote sound.sized layout txn record order lsn (sameId ▸ small)
  | update writer layout id record markLsn insertLsn =>
    refine StepEffect.write sound fits rfl ?_
    intro txn sameId small issued
    obtain ⟨owner, _, effect⟩ := sound.wellFormed.update layout txn id record markLsn insertLsn
    exact ⟨owner, effect.wrote sound.wellFormed sound.sized (sameId ▸ small) (sameId ▸ issued)⟩
  | erase writer id lsn =>
    refine StepEffect.write sound fits rfl ?_
    intro txn sameId small issued
    exact sound.wellFormed.erase_wrote sound.sized txn id lsn (sameId ▸ small) (sameId ▸ issued)

theorem Sound.step (sound : Sound supply state) (fits : state.Fits)
    (event : HeapStep) : Sound supply (step supply state event) := by
  cases sound.stepEffect fits event with
  | called call isCall manager heap =>
    refine ⟨?_, ?_, ?_, ?_⟩
    · rw [manager]
      exact TransactionManager.consistent_step sound.consistent call
    · rw [heap]
      exact sound.wellFormed
    · rw [heap]
      exact sound.sized
    · rw [heap]
      exact sound.chained
  | wrote writer acts active registry counter consistent heap =>
    exact ⟨consistent, heap.wellFormed, heap.sized, heap.writes.chained sound.chained⟩
  | idle same =>
    rw [same]
    exact sound

end Steps

structure Progress (state later : TransactionalHeap) : Prop where
  settled : ∀ id outcome, state.manager.registry.lookup id = some outcome →
    outcome ≠ .active → later.manager.registry.lookup id = some outcome

theorem Progress.refl (state : TransactionalHeap) : Progress state state :=
  ⟨fun _ _ found _ => found⟩

theorem Progress.trans {first second third : TransactionalHeap}
    (early : Progress first second) (late : Progress second third) : Progress first third :=
  ⟨fun id outcome found finished =>
    late.settled id outcome (early.settled id outcome found finished) finished⟩

theorem Progress.not_committed {state later : TransactionalHeap}
    (progress : Progress state later) {id : Nat}
    (active : later.manager.registry.lookup id = some .active) :
    state.manager.registry.isCommitted id = false := by
  rw [TransactionRegistry.isCommitted, TransactionRegistry.getState, beq_eq_false_iff_ne]
  intro committed
  have still := progress.settled id .committed committed (by simp)
  rw [active] at still
  contradiction

section Runs

variable {supply : PageSupply} {state : TransactionalHeap}

theorem Sound.progress_step (sound : Sound supply state) (fits : state.Fits) (event : HeapStep) :
    Progress state (TransactionalHeap.step supply state event) := by
  refine ⟨fun id outcome found finished => ?_⟩
  cases sound.stepEffect fits event with
  | called call isCall manager heap =>
    rw [manager]
    exact TransactionManager.lookup_step_of_ne_active sound.consistent call found finished
  | wrote writer acts active registry counter consistent heap =>
    rw [registry, found]
  | idle same => rw [same, found]

theorem counter_le_run (supply : PageSupply) (state : TransactionalHeap) (steps : List HeapStep) :
    state.manager.nextTxnId ≤ (GuardedRuns.run
      (TransactionalHeap.step supply) state steps).manager.nextTxnId := by
  induction steps generalizing state with
  | nil => exact le_rfl
  | cons event steps ih => exact (counter_step supply state event).1.trans (ih _)

variable (sound : Sound supply state) (steps : List HeapStep)
  (fits : (GuardedRuns.run (TransactionalHeap.step supply) state steps).Fits)

include sound steps fits in
theorem Sound.run : Sound supply (GuardedRuns.run (TransactionalHeap.step supply) state steps) ∧
      Progress state (GuardedRuns.run (TransactionalHeap.step supply) state steps) := by
  induction steps generalizing state with
  | nil => exact ⟨sound, Progress.refl state⟩
  | cons event steps ih =>
    have here : state.Fits :=
      (counter_le_run supply state (event :: steps)).trans fits
    obtain ⟨later, progress⟩ := ih (sound.step here event) fits
    exact ⟨later, (sound.progress_step here event).trans progress⟩

def Issued (state : TransactionalHeap) (id : Nat) : Prop :=
  1 ≤ id ∧ id < state.manager.nextTxnId

theorem Sound.authored_step (sound : Sound supply state) (fits : state.Fits)
    (authored : VersionStore.Authored state.Issued state.heap.versions) (event : HeapStep) :
    VersionStore.Authored (TransactionalHeap.step supply state event).Issued
      (TransactionalHeap.step supply state event).heap.versions := by
  have later (id : Nat) (issued : state.Issued id) :
      (TransactionalHeap.step supply state event).Issued id :=
    ⟨issued.1, issued.2.trans_le (counter_step supply state event).1⟩
  have kept : VersionStore.Authored (TransactionalHeap.step supply state event).Issued
      state.heap.versions := by
    intro id version stored
    obtain ⟨creator, deleters⟩ := authored id version stored
    exact ⟨later _ creator, fun deleter marked => later _ (deleters _ marked)⟩
  cases sound.stepEffect fits event with
  | called call isCall manager heap =>
    rw [heap]
    exact kept
  | wrote writer acts active registry counter consistent heap =>
    refine heap.writes.authored (later writer ?_) kept
    exact (sound.consistent.registered_iff writer).mp
      (TransactionManager.mem_registry_of_lookup active)
  | idle same =>
    rw [same]
    exact authored

include sound steps fits in
theorem Sound.authored_run (authored : VersionStore.Authored state.Issued state.heap.versions) :
    VersionStore.Authored (GuardedRuns.run (TransactionalHeap.step supply) state steps).Issued
      (GuardedRuns.run (TransactionalHeap.step supply) state steps).heap.versions := by
  induction steps generalizing state with
  | nil => exact authored
  | cons event steps ih =>
    have here : state.Fits :=
      (counter_le_run supply state (event :: steps)).trans fits
    exact ih (sound.step here event) fits (sound.authored_step here authored event)

/-- Under a snapshot a reader sees its own writes and those of transactions
that had committed before. -/
theorem sees_iff_committed {later : TransactionalHeap}
    (sound : Sound supply state) (laterSound : Sound supply later)
    (progress : Progress state later) (reader id : Nat) :
    TableHeap.Sees later.manager.registry state.manager.createSnapshot reader id ↔
      id = reader ∨ state.manager.registry.isCommitted id = true := by
  refine or_congr_right ?_
  by_cases positive : 1 ≤ id
  · exact TransactionManager.isCommitted_under_snapshot_iff sound.consistent
      progress.settled positive
  have unknown {other : TransactionalHeap} (known : Sound supply other) :
      ¬ other.manager.registry.isCommitted id = true := by
    intro committed
    have found := beq_iff_eq.mp committed
    exact positive ((known.consistent.registered_iff id).mp
      (TransactionManager.mem_registry_of_lookup found)).1
  exact iff_of_false (fun seen => unknown laterSound seen.2) (unknown sound)

theorem Sound.extends_step (sound : Sound supply state) (fits : state.Fits)
    (event : HeapStep) {writers : Nat → Prop} (allowed : ∀ writer, event.actor = some writer →
      state.manager.registry.lookup writer = some .active → writers writer) :
    VersionStore.Extends writers state.heap.versions
      (TransactionalHeap.step supply state event).heap.versions := by
  cases sound.stepEffect fits event with
  | called call isCall manager heap =>
    rw [heap]
    exact VersionStore.Extends.refl _ _
  | wrote writer acts active registry counter consistent heap =>
    refine heap.writes.extends.mono ?_
    rintro other rfl
    exact allowed other acts active
  | idle same =>
    rw [same]
    exact VersionStore.Extends.refl _ _

include sound steps fits

theorem Sound.versions_run :
    VersionStore.Extends (fun _ => True) state.heap.versions
      (GuardedRuns.run (TransactionalHeap.step supply) state steps).heap.versions := by
  induction steps generalizing state with
  | nil => exact VersionStore.Extends.refl _ _
  | cons event steps ih =>
    have here : state.Fits :=
      (counter_le_run supply state (event :: steps)).trans fits
    exact (sound.extends_step here event fun _ _ _ => trivial).trans
      (ih (sound.step here event) fits)

theorem Sound.stored_run {id : RecordID} {early : List UInt8}
    (present : state.heap.stored id = some early) :
    ∃ late, (GuardedRuns.run (TransactionalHeap.step supply) state
        steps).heap.stored id = some late ∧
      (readMvcc late).xmin = (readMvcc early).xmin ∧
      ((readMvcc early).xmax ≠ invalidTransactionID →
        (readMvcc late).xmax = (readMvcc early).xmax) := by
  obtain ⟨aged, there, old⟩ := sound.versions_run steps fits id _
    (TableHeap.versions_of_stored present)
  obtain ⟨late, stored, rfl⟩ := TableHeap.stored_of_versions there
  refine ⟨late, stored, old.creator_eq, ?_⟩
  intro marked
  have kept := old.deleter_of_marked (if_neg marked)
  by_contra ne
  rw [TableHeap.version] at kept
  split_ifs at kept with cleared
  exact ne (Option.some.inj kept)

theorem Sound.extends_run {origin : TransactionalHeap} (progress : Progress origin state)
    {reader : Nat} (others : ∀ event ∈ steps, event.actor ≠ some reader) :
    VersionStore.Extends (fun writer => writer ≠ reader ∧
        origin.manager.registry.isCommitted writer = false) state.heap.versions
      (GuardedRuns.run (TransactionalHeap.step supply) state steps).heap.versions := by
  induction steps generalizing state with
  | nil => exact VersionStore.Extends.refl _ _
  | cons event steps ih =>
    have here : state.Fits :=
      (counter_le_run supply state (event :: steps)).trans fits
    have rest := ih (sound.step here event) fits (progress.trans (sound.progress_step here event))
      fun later mem => others later (List.mem_cons_of_mem _ mem)
    refine (sound.extends_step here event ?_).trans rest
    intro writer acts active
    refine ⟨?_, progress.not_committed active⟩
    rintro rfl
    exact others event (List.mem_cons_self ..) acts

end Runs

theorem run_append (supply : PageSupply) (first second : List HeapStep) :
    run supply (first ++ second) = GuardedRuns.run (step supply) (run supply first) second :=
  GuardedRuns.run_append first second

section

variable {supply : PageSupply}

theorem fits_of_append {first second : List HeapStep} (fits : (run supply (first ++ second)).Fits) :
    (run supply first).Fits := by
  rw [run_append] at fits
  exact (counter_le_run supply _ second).trans fits

theorem sound_run {steps : List HeapStep} (fits : (run supply steps).Fits) :
    Sound supply (run supply steps) :=
  ((sound_initial supply).run steps fits).1

theorem authored_run {steps : List HeapStep} (fits : (run supply steps).Fits) :
    VersionStore.Authored (run supply steps).Issued (run supply steps).heap.versions := by
  refine (sound_initial supply).authored_run steps fits ?_
  rw [versions_initial]
  intro id version stored
  contradiction

theorem progress_run {first second : List HeapStep} (fits : (run supply (first ++ second)).Fits) :
    Progress (run supply first) (run supply (first ++ second)) := by
  have start := sound_run (fits_of_append fits)
  rw [run_append] at fits ⊢
  exact (start.run second fits).2

theorem fits_of_length {steps : List HeapStep} (short : steps.length < 2 ^ 64) :
    (run supply steps).Fits := by
  have bound : (run supply steps).manager.nextTxnId ≤ steps.length + 1 := by
    clear short
    induction steps using List.reverseRecOn with
    | nil => exact le_rfl
    | append_singleton steps event ih =>
      rw [run_append, List.length_append]
      have one := (counter_step supply (run supply steps) event).2
      exact one.trans (Nat.add_le_add_right ih 1)
  exact bound.trans short

end

def firstWriter : TransactionManager where
  nextTxnId := 2
  registry := TransactionRegistry.registerTransaction ∅ 1
  transactions := ((∅ : AList fun _ : Nat => Transaction).insert 1
    { id := 1, isoLevel := .repeatableRead }).insert 1 { id := 1, isoLevel := .repeatableRead }

def firstInsert (layout : TupleLayout) (record : Record) : List HeapStep :=
  [.call (.begin .repeatableRead .absent), .insert 1 layout record (DescendingSort.merge _) none]

theorem run_firstInsert {supply : PageSupply}
    (small : supply.first.pageSize < 2 ^ 32) {layout : TupleLayout}
    {record : Record} {bytes : List UInt8}
    (serialized : RecordSerializer.serialize record layout = .ok bytes)
    (fits : bytes.length + TablePage.sizeofSlot ≤ supply.first.limit - 72) :
    ∃ heap, run supply (firstInsert layout record) = ⟨firstWriter, heap⟩ ∧
      TableHeap.Added supply (TableHeap.create supply)
        (TableHeap.stampVersion bytes 1 {}) ⟨supply.first.pageId, 0⟩ heap ∧
      heap.firstPageId = supply.first.pageId ∧
      TableHeap.Roomy supply heap 1 (supply.first.limit - 72 -
        (bytes.length + TablePage.sizeofSlot)) := by
  obtain ⟨heap, inserted, added, first, roomy⟩ :=
    (TableHeap.roomy_create small).insert
      { id := 1, isoLevel := .repeatableRead } (DescendingSort.merge _) none
      serialized fits
  refine ⟨heap, ?_, added, first, roomy⟩
  have begun : run supply [.call (.begin .repeatableRead .absent)] =
      { manager :=
          { nextTxnId := 2
            registry := TransactionRegistry.registerTransaction ∅ 1
            transactions := AList.insert 1 { id := 1, isoLevel := .repeatableRead } ∅ }
        heap := TableHeap.create supply } := rfl
  have written : run supply (firstInsert layout record) =
      step supply (run supply [.call (.begin .repeatableRead .absent)])
        (.insert 1 layout record (DescendingSort.merge _) none) := rfl
  rw [written, begun, step, write_of_active (AList.lookup_insert _) rfl, inserted]
  rfl

theorem step_update_of_roomy {supply : PageSupply} {state : TransactionalHeap}
    {count room writer : Nat}
    (roomy : TableHeap.Roomy supply state.heap count room)
    {txn : Transaction}
    (found : state.manager.transactions.lookup writer = some txn)
    (active : txn.state = .active) (sameId : txn.id = writer)
    {id : RecordID} (here : id.pageId = state.heap.firstPageId)
    {bytes newBytes : List UInt8}
    (present : state.heap.stored id = some bytes)
    (unclaimed : (readMvcc bytes).xmax = invalidTransactionID ∨ (readMvcc bytes).xmax = writer)
    {layout : TupleLayout} {record : Record}
    (serialized : RecordSerializer.serialize record layout = .ok newBytes)
    (fits : newBytes.length + TablePage.sizeofSlot ≤ room) :
    ∃ object heap middle,
      step supply state (.update writer layout id record none none) =
          { manager :=
              { state.manager with
                transactions :=
                  state.manager.transactions.insert writer object }
            heap := heap } ∧
        object.id = writer ∧ object.state = .active ∧
        TableHeap.Marked supply state.heap writer id bytes middle ∧
        TableHeap.Added supply middle (TableHeap.stampVersion newBytes writer id)
          ⟨state.heap.firstPageId, count⟩ heap ∧
        heap.firstPageId = state.heap.firstPageId ∧
        TableHeap.Roomy supply heap (count + 1)
          (room - (newBytes.length + TablePage.sizeofSlot)) := by
  subst sameId
  obtain ⟨call, middle, updated, owner, marked, added, first, last⟩ :=
    roomy.update txn here present unclaimed serialized fits
  refine ⟨call.transaction, call.heap, middle, ?_, owner.id_eq,
    owner.state_eq.trans active, marked, added, first, last⟩
  rw [step, write_of_active found active, updated]

/-- Reads under one snapshot are repeatable: `get` returns for every version
the same before and after any steps of other transactions. -/
theorem get_repeatable (supply : PageSupply) (before between further : List HeapStep) (reader : Nat)
    (others : ∀ event ∈ further, event.actor ≠ some reader)
    (fits : (run supply (before ++ between ++ further)).Fits) (layout : TupleLayout) (id : RecordID)
    (present : ((run supply (before ++ between)).heap.stored id).isSome) :
    ∃ result enough, ∀ rounds, enough ≤ rounds →
      TableHeap.get layout (run supply (before ++ between)).manager.registry
          (run supply before).manager.createSnapshot reader
          (run supply (before ++ between)).heap rounds id = some result ∧
        TableHeap.get layout (run supply (before ++ between ++ further)).manager.registry
          (run supply before).manager.createSnapshot reader
          (run supply (before ++ between ++ further)).heap rounds id = some result := by
  have middleFits := fits_of_append fits
  have start := sound_run (fits_of_append middleFits)
  have middle := sound_run middleFits
  have final := sound_run fits
  have early := progress_run middleFits
  have late := progress_run fits
  have extended := middle.extends_run further (by rw [← run_append]; exact fits) early others
  rw [← run_append] at extended
  obtain ⟨bytes, stored⟩ := Option.isSome_iff_exists.mp present
  have sees (later : TransactionalHeap) (sound : Sound supply later)
      (progress : Progress (run supply before) later) :
      TableHeap.Sees later.manager.registry
        (run supply before).manager.createSnapshot reader =
          fun other => other = reader ∨
            (run supply before).manager.registry.isCommitted other = true :=
    funext fun other =>
      propext (sees_iff_committed start sound progress reader other)
  obtain ⟨result, reads⟩ := middle.chained.exists_reads
    (fun other => other = reader ∨ (run supply before).manager.registry.isCommitted other = true)
    (TableHeap.versions_of_stored stored)
  have later := reads.extend extended (by
    rintro writer ⟨other, hidden⟩ (own | committed)
    · exact other own
    · rw [hidden] at committed
      contradiction)
  have linked := RecordID.link_of_isValid (middle.wellFormed.isValid_of_stored stored)
  rw [← sees _ middle early] at reads
  rw [← sees _ final (early.trans late)] at later
  obtain ⟨first, firstGet⟩ := middle.wellFormed.get_of_reads middle.sized
    layout _ _ reader reads linked
  obtain ⟨second, secondGet⟩ := final.wellFormed.get_of_reads final.sized
    layout _ _ reader later linked
  refine ⟨TableHeap.report layout result, max first second, ?_⟩
  intro rounds enough
  exact ⟨BoundedLoop.run_of_le (le_trans (le_max_left _ _) enough) firstGet,
    BoundedLoop.run_of_le (le_trans (le_max_right _ _) enough) secondGet⟩

def onePage : PageSupply where
  first := ⟨1, List.replicate 512 0⟩
  rest := []
  exhausted := .ioError
  distinct := by decide
  valid := by decide +kernel
  large := by decide +kernel

def flagLayout : TupleLayout := TupleLayout.ofTypes [.boolean]

/-- A record of 41 bytes. -/
def flagRecord : Record := ⟨[.boolean true]⟩

def flagBytes : List UInt8 :=
  RecordHeader.toBytes { size := 41 } ++ [1]

theorem serialize_flagRecord :
    RecordSerializer.serialize flagRecord flagLayout = .ok flagBytes := by decide +kernel

theorem byteSize_le_flagBytes : RecordHeader.byteSize ≤ flagBytes.length := by
  decide +kernel

theorem readMvcc_flagVersion :
    readMvcc (TableHeap.stampVersion flagBytes 1 {}) = ⟨1, invalidTransactionID, {}⟩ :=
  TableHeap.readMvcc_stampVersion byteSize_le_flagBytes (by decide) (by decide) (by decide)

theorem run_flagRecord :
    ∃ heap, run onePage (firstInsert flagLayout flagRecord) = ⟨firstWriter, heap⟩ ∧
      TableHeap.Added onePage (TableHeap.create onePage)
        (TableHeap.stampVersion flagBytes 1 {}) ⟨1, 0⟩ heap ∧
      heap.firstPageId = 1 ∧ TableHeap.Roomy onePage heap 1 391 := by
  have limit : onePage.first.limit = 516 := by decide +kernel
  have length : flagBytes.length = 41 := by decide +kernel
  have room : 516 - 72 - (41 + TablePage.sizeofSlot) = 391 := by decide
  have small : onePage.first.pageSize < 2 ^ 32 := by decide +kernel
  obtain ⟨heap, ran, added, first, roomy⟩ :=
    run_firstInsert small serialize_flagRecord (by rw [limit, length]; decide)
  rw [limit, length, room] at roomy
  exact ⟨heap, ran, added, first, roomy⟩

def readerBegun : List HeapStep :=
  firstInsert flagLayout flagRecord ++
    [.call (.commit (some 1) .absent), .call (.begin .repeatableRead .absent)]

def writerBegun : List HeapStep := [.call (.begin .repeatableRead .absent)]

def recordErased : List HeapStep :=
  [.erase 3 ⟨1, 0⟩ none, .call (.commit (some 3) .absent)]

/-- A third transaction erases the record while the second one reads it. -/
theorem get_repeatable_erased :
    ∃ result enough, ∀ rounds, enough ≤ rounds →
      TableHeap.get flagLayout (run onePage (readerBegun ++ writerBegun)).manager.registry
          (run onePage readerBegun).manager.createSnapshot 2
          (run onePage (readerBegun ++ writerBegun)).heap rounds ⟨1, 0⟩ = some result ∧
        TableHeap.get flagLayout (run onePage
            (readerBegun ++ writerBegun ++ recordErased)).manager.registry
          (run onePage readerBegun).manager.createSnapshot 2
          (run onePage (readerBegun ++ writerBegun ++ recordErased)).heap
            rounds ⟨1, 0⟩ = some result := by
  have present :
      ((run onePage (readerBegun ++ writerBegun)).heap.stored ⟨1, 0⟩).isSome := by
    obtain ⟨heap, ran, added, _⟩ := run_flagRecord
    rw [readerBegun, List.append_assoc, run_append, ran]
    change (heap.stored ⟨1, 0⟩).isSome
    rw [added.stored_eq, Function.update_self]
    rfl
  exact get_repeatable onePage readerBegun writerBegun recordErased 2
    (by simp [recordErased, HeapStep.actor]) (fits_of_length (by decide))
    flagLayout ⟨1, 0⟩ present

/-- After any interleaving of transactions, every version was created and
marked by transactions that were begun, a replaced version is stored with the
mark of its replacement's creator, and the links have no cycle. -/
theorem versions_stay_linked (supply : PageSupply) (steps : List HeapStep)
    (fits : (run supply steps).Fits) :
    let state := run supply steps
    TableHeap.WellFormed supply state.heap ∧
      VersionStore.Authored state.Issued state.heap.versions ∧
      VersionStore.Chained state.heap.versions :=
  ⟨(sound_run fits).wellFormed, authored_run fits, (sound_run fits).chained⟩

theorem versions_stay_linked_erased :
    VersionStore.Chained (run onePage (readerBegun ++ recordErased)).heap.versions :=
  (versions_stay_linked _ _ (fits_of_length (by decide))).2.2

end TransactionalHeap

end KlyroDB
