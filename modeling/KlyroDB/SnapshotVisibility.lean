import KlyroDB.TransactionManager
import KlyroDB.MapUpdates
import Mathlib.Data.List.Induction

/-!
# Snapshots see exactly the transactions committed before them

The visibility rule combines a snapshot with the live registry, which keeps
changing.  The combination is independent of what happens later.
-/

namespace KlyroDB

open TransactionRegistry (getOldestActiveTransaction getState isCommitted)

namespace TransactionRegistry

@[simp]
theorem lookup_registerTransaction (registry : TransactionRegistry)
    (id : Nat) (state : TransactionState) :
    (registry.registerTransaction id state).lookup id = some state :=
  AList.lookup_insert registry

theorem lookup_registerTransaction_ne (registry : TransactionRegistry)
    {id other : Nat} (state : TransactionState) (ne : other ≠ id) :
    (registry.registerTransaction id state).lookup other = registry.lookup other :=
  AList.lookup_insert_ne ne

theorem lookup_updateState_ne (registry : TransactionRegistry)
    {id other : Nat} (state : TransactionState) (ne : other ≠ id) :
    (registry.updateState id state).lookup other = registry.lookup other := by
  unfold updateState
  split
  · exact AList.lookup_insert_ne ne
  · rfl

theorem lookup_updateState (registry : TransactionRegistry) {id : Nat} {previous : TransactionState}
    (state : TransactionState) (present : registry.lookup id = some previous) :
    (registry.updateState id state).lookup id = some state := by
  have mem : id ∈ registry := AList.lookup_isSome.mp (by simp [present])
  rw [updateState, if_pos mem]
  exact AList.lookup_insert registry

theorem mem_getActiveTransactions (registry : TransactionRegistry) (id : Nat) :
    id ∈ registry.getActiveTransactions ↔
      ∃ state, registry.lookup id = some state ∧ isUnfinished state = true := by
  simp only [getActiveTransactions, List.mem_map, List.mem_filter]
  constructor
  · rintro ⟨⟨other, state⟩, ⟨entry, unfinished⟩, rfl⟩
    exact ⟨state, AList.mem_lookup_iff.mpr entry, unfinished⟩
  · rintro ⟨state, found, unfinished⟩
    exact ⟨⟨id, state⟩, ⟨AList.mem_lookup_iff.mp found, unfinished⟩, rfl⟩

end TransactionRegistry

namespace Snapshot

theorem head?_lowerBound_eq_some_iff {values : List Nat}
    (sorted : values.Pairwise (· ≤ ·)) (value : Nat) :
    (lowerBound values value).head? = some value ↔ value ∈ values := by
  induction values with
  | nil => simp [lowerBound]
  | cons first rest ih =>
    obtain ⟨firstLe, restSorted⟩ := List.pairwise_cons.mp sorted
    by_cases below : first < value
    · have skip : lowerBound (first :: rest) value = lowerBound rest value := by
        simp [lowerBound, below]
      rw [skip, ih restSorted]
      have ne : value ≠ first := by omega
      simp [ne]
    have stop : lowerBound (first :: rest) value = first :: rest := by simp [lowerBound, below]
    rw [stop]
    constructor
    · intro found
      simp only [List.head?_cons, Option.some.injEq] at found
      simp [found]
    intro mem
    rcases List.mem_cons.mp mem with same | inRest
    · simp [same]
    · have firstLeValue := firstLe value inRest
      have same : first = value := by omega
      simp [same]

theorem isActive_make_iff (xmin xmax : Nat) (activeTxns : List Nat) (id : Nat) :
    (make xmin xmax activeTxns).isActive id = true ↔ xmin ≤ id ∧ (xmax ≤ id ∨ id ∈ activeTxns) := by
  have sorted : activeTxns.mergeSort.Pairwise (· ≤ ·) := by
    simpa using List.pairwise_mergeSort' (· ≤ ·) activeTxns
  have found := head?_lowerBound_eq_some_iff sorted id
  rw [(List.mergeSort_perm activeTxns _).mem_iff] at found
  have unfolded : (make xmin xmax activeTxns).isActive id = if id < xmin then false else if xmax ≤
      id then true else (lowerBound activeTxns.mergeSort id).head? == some id := rfl
  rw [unfolded]
  by_cases below : id < xmin
  · simp only [if_pos below, Bool.false_eq_true, false_iff]
    omega
  by_cases above : xmax ≤ id
  · simp only [if_neg below, if_pos above, true_iff]
    exact ⟨by omega, Or.inl above⟩
  simp only [if_neg below, if_neg above, beq_iff_eq, found]
  constructor
  · intro mem
    exact ⟨by omega, Or.inr mem⟩
  · rintro ⟨-, afterwards | mem⟩
    · exact absurd afterwards above
    · exact mem

end Snapshot

/-- One call on the transaction manager, with the replies of the log. -/
inductive TransactionCall
  | begin (isoLevel : IsolationLevel) (wal : WalReply)
  | commit (pointer : Option Nat) (wal : WalReply)
  | abort (pointer : Option Nat) (abortWal endWal : WalReply)
  deriving DecidableEq, Repr

namespace TransactionManager

def step (manager : TransactionManager) : TransactionCall → TransactionManager
  | .begin isoLevel wal => (manager.begin isoLevel wal).1
  | .commit pointer wal => (manager.commit pointer wal).1
  | .abort pointer abortWal endWal => (manager.abort pointer abortWal endWal).1

def run (calls : List TransactionCall) : TransactionManager :=
  calls.foldl step {}

@[simp]
theorem run_append_singleton (calls : List TransactionCall) (call : TransactionCall) :
    run (calls ++ [call]) = (run calls).step call := by simp [run]

/-- Some call of the history, made in the state it was made in, has the
given property. -/
def Occurs (calls : List TransactionCall)
    (property : TransactionManager → TransactionCall → Prop) : Prop :=
  ∃ before call after, calls = before ++ call :: after ∧ property (run before) call

/-- A `begin` call of the history took this identifier from the counter. -/
def Issued (calls : List TransactionCall) (id : Nat) : Prop :=
  Occurs calls fun manager call =>
    (∃ isoLevel wal, call = .begin isoLevel wal) ∧ manager.nextTxnId = id

/-- A `commit` call of the history on this transaction returned `OK`. -/
def CommittedIn (calls : List TransactionCall) (id : Nat) : Prop :=
  Occurs calls fun manager call =>
    ∃ wal, call = .commit (some id) wal ∧ (manager.commit (some id) wal).2 = .returned .ok

/-- The registry knows exactly the issued identifiers, and each transaction
object agrees with its registry entry. -/
structure Consistent (manager : TransactionManager) : Prop where
  next_pos : 1 ≤ manager.nextTxnId
  registered_iff : ∀ id, id ∈ manager.registry ↔ 1 ≤ id ∧ id < manager.nextTxnId
  object_state : ∀ id transaction, manager.transactions.lookup id = some transaction →
    transaction.id = id ∧ manager.registry.lookup id = some transaction.state

theorem consistent_initial : Consistent {} where
  next_pos := by decide
  registered_iff := by
    intro id
    constructor
    · intro mem
      exact absurd mem (AList.notMem_empty id)
    · rintro ⟨positive, below⟩
      simp only [initialTransactionID] at below
      omega
  object_state := by
    intro id txn found
    simp at found

variable {manager : TransactionManager} {id : Nat} {state : TransactionState}

theorem lookup_of_target {pointer : Option Nat} {txn : Transaction}
    (found : manager.target pointer = some txn) :
    ∃ id, pointer = some id ∧ manager.transactions.lookup id = some txn := by
  cases pointer with
  | none => simp [target] at found
  | some id => exact ⟨id, rfl, found⟩

/-- Every object of `next` other than that of `changed` has the identifier
and the state of an object that `manager` already owned. -/
def ObjectsKept (manager next : TransactionManager) (changed : Option Nat) : Prop :=
  ∀ id object, next.transactions.lookup id = some object → changed ≠ some id → ∃ prior,
    manager.transactions.lookup id = some prior ∧ object.id = prior.id ∧ object.state = prior.state

theorem objectsKept_insert (manager : TransactionManager) (next : Nat)
    (registry : TransactionRegistry) (id : Nat) (object : Transaction) :
    ObjectsKept manager
      { nextTxnId := next
        registry := registry
        transactions := manager.transactions.insert id object } (some id) := by
  intro other found lookup ne
  have distinct : other ≠ id := by
    rintro rfl
    exact ne rfl
  rw [AList.lookup_insert_ne distinct] at lookup
  exact ⟨found, lookup, rfl, rfl⟩

/-- What one call does to the counter, the registry and the transaction
objects.  Every transition other than a registration moves an active
transaction to a final state. -/
inductive RegistryEffect (manager next : TransactionManager) (call : TransactionCall) : Prop
  | unchanged (counter : next.nextTxnId = manager.nextTxnId)
      (registry : next.registry = manager.registry) (objects : ObjectsKept manager next none)
      (noCommit : ∀ id wal, call = .commit (some id) wal → (manager.commit (some id) wal).2 ≠
      .returned .ok) (noBegin : ∀ isoLevel wal, call ≠ .begin isoLevel wal)
  | registered (isoLevel : IsolationLevel) (wal : WalReply) (isBegin : call = .begin isoLevel wal)
      (counter : next.nextTxnId = manager.nextTxnId + 1) (registry : next.registry =
      manager.registry.registerTransaction manager.nextTxnId) (objects : ObjectsKept manager next
      (some manager.nextTxnId)) (object : ∃ stored, next.transactions.lookup manager.nextTxnId =
      some stored ∧ stored.id = manager.nextTxnId ∧ stored.state = .active)
  | finished (id : Nat) (state : TransactionState) (settles : (state = .committed ∧ ∃ wal, call =
      .commit (some id) wal ∧ (manager.commit (some id) wal).2 = .returned .ok) ∨ (state = .aborted
      ∧ ∃ abortWal endWal, call = .abort (some id) abortWal endWal))
      (counter : next.nextTxnId = manager.nextTxnId) (active : manager.registry.lookup id = some
      .active) (registry : next.registry = manager.registry.updateState id state)
      (objects : ObjectsKept manager next (some id)) (object : ∃ stored, next.transactions.lookup id
      = some stored ∧ stored.id = id ∧ stored.state = state)

theorem objectsKept_self (manager : TransactionManager) : ObjectsKept manager manager none :=
  fun _ object lookup _ => ⟨object, lookup, rfl, rfl⟩

/-- The common end of `commit` and `abort`. -/
theorem registryEffect_finish {call : TransactionCall} {txn : Transaction} (sameId : txn.id = id)
    (active : manager.registry.lookup id = some .active)
    (settles : (state = .committed ∧ ∃ wal, call = .commit (some id) wal ∧
        (manager.commit (some id) wal).2 = .returned .ok) ∨
      (state = .aborted ∧ ∃ abortWal endWal, call = .abort (some id) abortWal endWal)) :
    RegistryEffect manager (manager.finish txn state) call := by
  subst sameId
  exact .finished txn.id state settles rfl active rfl
    (objectsKept_insert manager _ _ txn.id _) ⟨_, AList.lookup_insert _, rfl, rfl⟩

theorem registryEffect_begin (manager : TransactionManager)
    (isoLevel : IsolationLevel) (wal : WalReply) :
    RegistryEffect manager (manager.begin isoLevel wal).1 (.begin isoLevel wal) := by
  cases wal <;> exact .registered isoLevel _ rfl rfl rfl (objectsKept_insert manager _ _
    manager.nextTxnId _) ⟨_, AList.lookup_insert _, rfl, rfl⟩

section

variable (agree : ∀ id transaction, manager.transactions.lookup id = some transaction →
  transaction.id = id ∧ manager.registry.lookup id = some transaction.state)

include agree

theorem registryEffect_commit (pointer : Option Nat) (wal : WalReply) :
    RegistryEffect manager (manager.commit pointer wal).1 (.commit pointer wal) := by
  have idle (same : (manager.commit pointer wal).1 = manager) (fails :
      (manager.commit pointer wal).2 ≠ .returned .ok) : RegistryEffect manager
      (manager.commit pointer wal).1 (.commit pointer wal) := by
    rw [same]
    refine .unchanged rfl rfl (objectsKept_self manager) ?_ (by simp)
    intro id otherWal call
    cases call
    exact fails
  cases found : manager.target pointer with
  | none => exact idle (by simp [commit, found]) (by simp [commit, found])
  | some txn =>
    obtain ⟨id, rfl, stored⟩ := lookup_of_target found
    obtain ⟨sameId, registered⟩ := agree id txn stored
    by_cases active : txn.state = .active
    · have ends (result : manager.commit (some id) wal = (manager.finish txn .committed,
          .returned .ok)) : RegistryEffect manager (manager.commit (some id) wal).1
          (.commit (some id) wal) := by
        rw [result]
        apply registryEffect_finish sameId (registered.trans (by rw [active]))
        exact Or.inl ⟨rfl, wal, rfl, by rw [result]⟩
      cases wal with
      | throws =>
        exact idle (by simp [commit, found, active]) (by simp [commit, found, active])
      | absent | appended => exact ends (by simp [commit, found, active])
    · exact idle (by simp [commit, found, active]) (by simp [commit, found, active])

theorem registryEffect_abort (pointer : Option Nat) (abortWal endWal : WalReply) :
    RegistryEffect manager (manager.abort pointer abortWal endWal).1
      (.abort pointer abortWal endWal) := by
  have idle (same : (manager.abort pointer abortWal endWal).1 = manager) : RegistryEffect manager
      (manager.abort pointer abortWal endWal).1 (.abort pointer abortWal endWal) := by
    rw [same]
    exact .unchanged rfl rfl (objectsKept_self manager) (by simp) (by simp)
  cases found : manager.target pointer with
  | none => exact idle (by simp [abort, found])
  | some txn =>
    obtain ⟨id, rfl, stored⟩ := lookup_of_target found
    obtain ⟨sameId, registered⟩ := agree id txn stored
    by_cases active : txn.state = .active
    · have activeEntry := registered.trans (by rw [active])
      have ends (object : Transaction) (objectId : object.id = id) (result :
          (manager.abort (some id) abortWal endWal).1 = manager.finish object .aborted) :
          RegistryEffect manager (manager.abort (some id) abortWal endWal).1
          (.abort (some id) abortWal endWal) := by
        rw [result]
        exact registryEffect_finish objectId activeEntry (Or.inr ⟨rfl, _, _, rfl⟩)
      cases abortWal with
      | throws => exact idle (by simp [abort, found, active])
      | absent => exact ends txn sameId (by simp [abort, found, active])
      | appended lsn =>
        cases endWal with
        | absent | appended =>
          apply ends { txn with lastLsn := lsn }
          · exact sameId
          · simp [abort, found, active]
        | throws =>
          have result : (manager.abort (some id) (.appended lsn) .throws).1 = { manager with
                transactions := manager.transactions.insert
                  txn.id { txn with lastLsn := lsn } } := by
            simp [abort, found, active]
          rw [result]
          refine .unchanged rfl rfl ?_ (by simp) (by simp)
          intro other object lookup _
          subst sameId
          rcases AList.lookup_insert_cases lookup with ⟨rfl, rfl⟩ | ⟨-, lookup⟩
          · exact ⟨txn, stored, rfl, rfl⟩
          · exact ⟨object, lookup, rfl, rfl⟩
    · exact idle (by simp [abort, found, active])

theorem RegistryEffect.object_state {next : TransactionManager} {call : TransactionCall}
    (effect : RegistryEffect manager next call) (id : Nat) (object : Transaction)
    (lookup : next.transactions.lookup id = some object) :
    object.id = id ∧ next.registry.lookup id = some object.state := by
  have kept {changed : Option Nat} (objects : ObjectsKept manager next changed)
      (ne : changed ≠ some id) :
      object.id = id ∧ manager.registry.lookup id = some object.state := by
    obtain ⟨prior, priorLookup, sameId, sameState⟩ := objects id object lookup ne
    rw [sameId, sameState]
    exact agree id prior priorLookup
  cases effect with
  | unchanged _ registry objects =>
    rw [registry]
    exact kept objects (by simp)
  | registered _ _ _ _ registry objects stored =>
    obtain ⟨stored, storedLookup, storedId, storedState⟩ := stored
    by_cases same : id = manager.nextTxnId
    · subst same
      rw [storedLookup] at lookup
      cases lookup
      simp [registry, storedId, storedState]
    · rw [registry, TransactionRegistry.lookup_registerTransaction_ne _ _ same]
      exact kept objects (by simpa using Ne.symm same)
  | finished changed _ _ _ active registry objects stored =>
    obtain ⟨stored, storedLookup, storedId, storedState⟩ := stored
    by_cases same : id = changed
    · subst same
      rw [storedLookup] at lookup
      cases lookup
      rw [registry, TransactionRegistry.lookup_updateState _ _ active, storedState]
      exact ⟨storedId, rfl⟩
    · rw [registry, TransactionRegistry.lookup_updateState_ne _ _ same]
      exact kept objects (by simpa using Ne.symm same)

end

theorem registryEffect_step (consistent : Consistent manager) (call : TransactionCall) :
    RegistryEffect manager (manager.step call) call := by
  cases call with
  | begin isoLevel wal => exact registryEffect_begin manager isoLevel wal
  | commit pointer wal => exact registryEffect_commit consistent.object_state pointer wal
  | abort pointer abortWal endWal =>
    exact registryEffect_abort consistent.object_state pointer abortWal endWal

theorem mem_registry_of_lookup (found : manager.registry.lookup id = some state) :
    id ∈ manager.registry :=
  AList.lookup_isSome.mp (by simp [found])

theorem mem_updateState (active : manager.registry.lookup id = some .active) (other : Nat) :
    other ∈ manager.registry.updateState id state ↔ other ∈ manager.registry := by
  have known := mem_registry_of_lookup active
  rw [TransactionRegistry.updateState, if_pos known, AList.mem_insert]
  exact or_iff_right_of_imp fun same => same ▸ known

theorem lookup_step_of_ne_active (consistent : Consistent manager)
    (call : TransactionCall) (found : manager.registry.lookup id = some state)
    (settled : state ≠ .active) : (manager.step call).registry.lookup id = some state := by
  have known := (consistent.registered_iff id).mp (mem_registry_of_lookup found)
  cases registryEffect_step consistent call with
  | unchanged _ registry => rw [registry, found]
  | registered _ _ _ _ registry =>
    rw [registry, TransactionRegistry.lookup_registerTransaction_ne _ _ (by omega), found]
  | finished other _ _ _ active registry =>
    have ne : id ≠ other := by
      rintro rfl
      rw [found] at active
      exact settled (Option.some.inj active)
    rw [registry, TransactionRegistry.lookup_updateState_ne _ _ ne, found]

theorem consistent_step (consistent : Consistent manager)
    (call : TransactionCall) : Consistent (manager.step call) := by
  have positive := consistent.next_pos
  have effect := registryEffect_step consistent call
  have agree := effect.object_state consistent.object_state
  cases effect with
  | unchanged counter registry =>
    refine ⟨by omega, fun id => ?_, agree⟩
    rw [registry, counter, consistent.registered_iff]
  | registered _ _ _ counter registry =>
    refine ⟨by omega, fun id => ?_, agree⟩
    rw [registry, counter, TransactionRegistry.registerTransaction,
      AList.mem_insert, consistent.registered_iff]
    omega
  | finished changed state _ counter active registry =>
    refine ⟨by omega, fun id => ?_, agree⟩
    rw [registry, counter, mem_updateState active, consistent.registered_iff]

theorem consistent_run (calls : List TransactionCall) : Consistent (run calls) := by
  induction calls using List.reverseRecOn with
  | nil => exact consistent_initial
  | append_singleton calls call ih =>
    rw [run_append_singleton]
    exact consistent_step ih call

theorem lookup_run_append_of_ne_active (before after : List TransactionCall)
    (found : (run before).registry.lookup id = some state) (settled : state ≠ .active) :
    (run (before ++ after)).registry.lookup id = some state := by
  induction after using List.reverseRecOn with
  | nil => simpa using found
  | append_singleton after call ih =>
    rw [← List.append_assoc, run_append_singleton]
    exact lookup_step_of_ne_active (consistent_run _) call ih settled

theorem not_occurs_nil (property : TransactionManager → TransactionCall → Prop) :
    ¬ Occurs [] property := by
  rintro ⟨before, call, after, split, -⟩
  simp at split

theorem occurs_append_singleton (calls : List TransactionCall) (call : TransactionCall)
    (property : TransactionManager → TransactionCall → Prop) :
    Occurs (calls ++ [call]) property ↔ Occurs calls property ∨ property (run calls) call := by
  constructor
  · rintro ⟨before, middle, after, split, holds⟩
    induction after using List.reverseRecOn with
    | nil =>
      obtain ⟨rfl, sameCall⟩ := List.append_inj' split rfl
      cases sameCall
      exact Or.inr holds
    | append_singleton after last _ =>
      rw [← List.cons_append, ← List.append_assoc] at split
      obtain ⟨rfl, _⟩ := List.append_inj' split rfl
      exact Or.inl ⟨before, middle, after, rfl, holds⟩
  · rintro (⟨before, middle, after, rfl, holds⟩ | holds)
    · exact ⟨before, middle, after ++ [call], by simp, holds⟩
    · exact ⟨calls, call, [], rfl, holds⟩

theorem issued_iff (calls : List TransactionCall) (id : Nat) :
    Issued calls id ↔ 1 ≤ id ∧ id < (run calls).nextTxnId := by
  induction calls using List.reverseRecOn with
  | nil =>
    have counter : (run []).nextTxnId = 1 := rfl
    simp only [Issued, not_occurs_nil, counter, false_iff]
    omega
  | append_singleton calls call ih =>
    have consistent := consistent_run calls
    have positive := consistent.next_pos
    rw [Issued, occurs_append_singleton, ← Issued, ih, run_append_singleton]
    cases registryEffect_step consistent call with
    | unchanged counter _ _ _ noBegin =>
      rw [counter]
      constructor
      · rintro (bounds | ⟨⟨isoLevel, wal, same⟩, -⟩)
        · exact bounds
        · exact absurd same (noBegin isoLevel wal)
      · exact Or.inl
    | registered isoLevel wal isBegin counter =>
      rw [counter]
      simp only [isBegin, TransactionCall.begin.injEq, exists_and_left,
        exists_eq', and_true, true_and]
      omega
    | finished changed state settles counter =>
      have noBegin : ¬ ∃ isoLevel wal, call = .begin isoLevel wal := by
        rintro ⟨isoLevel, wal, rfl⟩
        simp at settles
      simp [noBegin, counter]

theorem committedIn_iff (calls : List TransactionCall) (id : Nat) :
    CommittedIn calls id ↔ (run calls).registry.lookup id = some .committed := by
  induction calls using List.reverseRecOn with
  | nil =>
    have empty : (run []).registry.lookup id = none := by simp [run]
    simp [CommittedIn, not_occurs_nil, empty]
  | append_singleton calls call ih =>
    have consistent := consistent_run calls
    rw [CommittedIn, occurs_append_singleton, ← CommittedIn, ih, run_append_singleton]
    cases registryEffect_step consistent call with
    | unchanged _ registry _ noCommit =>
      rw [registry]
      constructor
      · rintro (committed | ⟨wal, same, succeeds⟩)
        · exact committed
        · exact absurd succeeds (noCommit id wal same)
      · exact Or.inl
    | registered isoLevel wal isBegin _ registry =>
      rw [registry, isBegin]
      by_cases same : id = (run calls).nextTxnId
      · have fresh : (run calls).registry.lookup id = none := by
          rw [AList.lookup_eq_none, consistent.registered_iff]
          omega
        rw [fresh, same, TransactionRegistry.lookup_registerTransaction]
        simp
      · rw [TransactionRegistry.lookup_registerTransaction_ne _ _ same]
        simp
    | finished changed state settles _ active registry =>
      rw [registry]
      by_cases same : id = changed
      · subst same
        rw [TransactionRegistry.lookup_updateState _ _ active, active]
        rcases settles with ⟨rfl, wal, rfl, succeeds⟩ | ⟨rfl, abortWal, endWal, rfl⟩
        · simp [succeeds]
        · simp
      rw [TransactionRegistry.lookup_updateState_ne _ _ same]
      have otherCall : ¬ ∃ wal, call = .commit (some id) wal ∧
          ((run calls).commit (some id) wal).2 = .returned .ok := by
        rintro ⟨wal, rfl, -⟩
        rcases settles with ⟨-, otherWal, sameCall, -⟩ | ⟨-, abortWal, endWal, sameCall⟩
        · simp at sameCall
          exact same sameCall.1
        · simp at sameCall
      simp [otherCall]

/-- A snapshot takes for active what has not been issued yet and what is
unfinished in the registry it was built from. -/
theorem isActive_createSnapshot_iff (consistent : Consistent manager) (id : Nat) :
    manager.createSnapshot.isActive id = true ↔
      manager.nextTxnId ≤ id ∨
        ∃ state, manager.registry.lookup id = some state ∧
          TransactionRegistry.isUnfinished state = true := by
  have activeBounds : ∀ other ∈ manager.registry.getActiveTransactions,
      1 ≤ other ∧ other < manager.nextTxnId := by
    intro other mem
    obtain ⟨state, found, -⟩ := (TransactionRegistry.mem_getActiveTransactions _ _).mp mem
    exact (consistent.registered_iff other).mp (mem_registry_of_lookup found)
  rw [← TransactionRegistry.mem_getActiveTransactions, createSnapshot, Snapshot.isActive_make_iff]
  cases oldest : manager.registry.getActiveTransactions.min? with
  | none =>
    have noneActive : manager.registry.getActiveTransactions = [] := List.min?_eq_none_iff.mp oldest
    simp [getOldestActiveTransaction, noneActive]
  | some first =>
    obtain ⟨firstActive, firstLe⟩ := List.min?_eq_some_iff.mp oldest
    have firstBounds := activeBounds first firstActive
    have lower : getOldestActiveTransaction manager.registry = first := by
      simp [getOldestActiveTransaction, oldest]
    have keep : ¬ (first = invalidTransactionID ∨ manager.nextTxnId < first) := by
      simp only [invalidTransactionID]
      omega
    rw [lower, if_neg keep]
    constructor
    · rintro ⟨-, property⟩
      exact property
    intro property
    refine ⟨?_, property⟩
    rcases property with later | mem
    · omega
    · exact firstLe id mem

/-- A snapshot and a later registry together tell what had committed when the
snapshot was taken. -/
theorem isCommitted_under_snapshot_iff {later : TransactionManager}
    (consistent : Consistent manager)
    (settled : ∀ id state, manager.registry.lookup id = some state →
      state ≠ .active → later.registry.lookup id = some state)
    (positive : 1 ≤ id) : (manager.createSnapshot.isActive id = false ∧
        later.registry.isCommitted id = true) ↔ manager.registry.isCommitted id = true := by
  have active := isActive_createSnapshot_iff consistent id
  rw [← Bool.not_eq_true, active]
  simp only [isCommitted, getState, beq_iff_eq, not_or, not_exists, not_and, Bool.not_eq_true]
  constructor
  · rintro ⟨⟨old, finished⟩, committed⟩
    have mem := (consistent.registered_iff id).mpr ⟨positive, by omega⟩
    obtain ⟨state, found⟩ := Option.isSome_iff_exists.mp (AList.lookup_isSome.mpr mem)
    have ended := finished state found
    have notActive : state ≠ .active := by
      rintro rfl
      simp [TransactionRegistry.isUnfinished] at ended
    have still := settled id state found notActive
    rw [still] at committed
    rw [found, committed]
  intro committed
  refine ⟨⟨?_, ?_⟩, settled id _ committed (by simp)⟩
  · have bounds := (consistent.registered_iff id).mp (mem_registry_of_lookup committed)
    omega
  · intro state found
    rw [committed] at found
    cases found
    rfl

/-- Under a snapshot, an issued transaction other than the reader counts as
finished and committed exactly when it had committed before the snapshot. -/
theorem committed_under_snapshot_iff (before after : List TransactionCall)
    (id : Nat) (issued : Issued (before ++ after) id) :
    ((run before).createSnapshot.isActive id = false ∧
        (run (before ++ after)).registry.isCommitted id = true) ↔ CommittedIn before id := by
  rw [isCommitted_under_snapshot_iff (consistent_run before) (fun _ _ found settled =>
      lookup_run_append_of_ne_active before after found settled)
    ((issued_iff _ id).mp issued).1, committedIn_iff, isCommitted, beq_iff_eq,
    getState]

/-- Along every history, a version is visible under a snapshot exactly when
its creator is the reader or had committed before the snapshot, and it has no
deleter of which the same holds. -/
theorem isVisible_iff_committedIn (before after : List TransactionCall)
    (reader : Nat) (header : MVCCHeader) (creatorIssued : Issued (before ++ after) header.xmin)
    (deleterIssued : header.xmax = invalidTransactionID ∨ Issued (before ++ after) header.xmax) :
    isVisible (run (before ++ after)).registry header (run before).createSnapshot reader = true ↔
      (header.xmin = reader ∨ CommittedIn before header.xmin) ∧
        ¬ (header.xmax ≠ invalidTransactionID ∧
          (header.xmax = reader ∨ CommittedIn before header.xmax)) := by
  rw [← committed_under_snapshot_iff before after _ creatorIssued]
  by_cases undeleted : header.xmax = invalidTransactionID
  · simp [isVisible, undeleted]
  · rw [← committed_under_snapshot_iff before after _ (deleterIssued.resolve_left undeleted)]
    cases finished : (run before).createSnapshot.isActive header.xmax <;>
      simp [isVisible, undeleted, finished]

/-- A committed creator and a deleter that commits only after the snapshot. -/
theorem isVisible_late_delete :
    isVisible (run ([.begin .repeatableRead .absent,
          .commit (some 1) .absent, .begin .repeatableRead .absent] ++
        [.commit (some 2) .absent])).registry
      { xmin := 1, xmax := 2 }
      (run [.begin .repeatableRead .absent, .commit (some 1) .absent,
        .begin .repeatableRead .absent]).createSnapshot 3 = true := by
  refine (isVisible_iff_committedIn _ _ 3 { xmin := 1, xmax := 2 } ?_ ?_).mpr ⟨Or.inr ?_, ?_⟩
  · exact (issued_iff _ _).mpr (by decide)
  · exact Or.inr ((issued_iff _ _).mpr (by decide))
  · exact (committedIn_iff _ _).mpr (by decide)
  · rintro ⟨-, own | committed⟩
    · simp at own
    · exact absurd ((committedIn_iff _ _).mp committed) (by decide)

/-- Once a commit has returned OK it stays, and every further `commit` or
`abort` of the transaction is refused without effect. -/
theorem commit_is_final (before after : List TransactionCall) (id : Nat)
    (committed : CommittedIn before id) :
    let later := run (before ++ after)
    CommittedIn (before ++ after) id ∧
      (∀ wal, later.commit (some id) wal = (later, .returned .invalidState)) ∧ ∀ abortWal endWal,
        later.abort (some id) abortWal endWal = (later, .returned .invalidState) := by
  intro later
  have kept : later.registry.lookup id = some .committed :=
    lookup_run_append_of_ne_active before after ((committedIn_iff _ _).mp committed) (by decide)
  have settled (txn : Transaction) (found : later.target (some id) = some txn) :
      txn.state ≠ .active := by
    have state := ((consistent_run _).object_state id txn found).2.symm.trans kept
    rw [Option.some.inj state]
    decide
  refine ⟨(committedIn_iff _ _).mpr kept, fun wal => ?_, fun abortWal endWal => ?_⟩
  · unfold commit
    split
    · rfl
    next txn found => rw [if_pos (settled txn found)]
  · unfold abort
    split
    · rfl
    next txn found => rw [if_pos (settled txn found)]

theorem commit_is_final_aborted :
    CommittedIn ([.begin .repeatableRead .absent, .commit (some 1) .absent] ++
      [.abort (some 1) .absent .absent]) 1 :=
  (commit_is_final _ _ 1 ((committedIn_iff _ _).mpr (by decide))).1

end TransactionManager

end KlyroDB
