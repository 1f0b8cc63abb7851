import KlyroDB.GuardedRuns
import KlyroDB.SnapshotVisibility
import KlyroDB.MapUpdates

/-!
# Snapshots taken while transactions begin

`begin` takes its identifier from the counter and registers it later, and
`create_snapshot` reads three times.  No lock covers these steps, so each of
them is a step of its own here.
-/

namespace KlyroDB

structure SnapshotRead where
  xmax : Nat
  xmin : Option Nat
  deriving DecidableEq

structure TakenSnapshot where
  snapshot : Snapshot
  registry : TransactionRegistry

structure InterleavedManager where
  manager : TransactionManager := {}
  begun : List Nat := []
  reads : List SnapshotRead := []
  taken : List TakenSnapshot := []

inductive ManagerStep
  | takeId
  | register (id : Nat) (isoLevel : IsolationLevel) (wal : WalReply)
  | commit (pointer : Option Nat) (wal : WalReply)
  | abort (pointer : Option Nat) (abortWal endWal : WalReply)
  | readNext
  | readOldest (index : Nat)
  | readActive (index : Nat)

namespace TransactionManager

def takeId (manager : TransactionManager) : TransactionManager :=
  { manager with nextTxnId := manager.nextTxnId + 1 }

def registerBegun (manager : TransactionManager) (id : Nat)
    (isoLevel : IsolationLevel) (wal : WalReply) : TransactionManager :=
  let transaction : Transaction := { id := id, isoLevel := isoLevel }
  { manager with
    registry := manager.registry.registerTransaction id
    transactions := manager.transactions.insert id
      (match wal with
        | .appended lsn => { transaction with lastLsn := lsn }
        | .absent | .throws => transaction) }

theorem begin_eq_steps (manager : TransactionManager) (isoLevel : IsolationLevel) (wal : WalReply) :
    (manager.begin isoLevel wal).1 =
      manager.takeId.registerBegun manager.nextTxnId isoLevel wal := by
  cases wal with
  | absent | appended lsn | throws => rfl

def readXmin (manager : TransactionManager) (xmax : Nat) : Nat :=
  let oldest := manager.registry.getOldestActiveTransaction
  if oldest = invalidTransactionID ∨ xmax < oldest then xmax else oldest

theorem createSnapshot_eq_steps (manager : TransactionManager) :
    manager.createSnapshot = Snapshot.make (manager.readXmin manager.nextTxnId) manager.nextTxnId
        manager.registry.getActiveTransactions :=
  rfl

end TransactionManager

namespace InterleavedManager

def step (state : InterleavedManager) : ManagerStep → InterleavedManager
  | .takeId =>
      { state with
        manager := state.manager.takeId
        begun := state.manager.nextTxnId :: state.begun }
  | .register id isoLevel wal =>
      if id ∈ state.begun then
        { state with
          manager := state.manager.registerBegun id isoLevel wal
          begun := state.begun.erase id }
      else state
  | .commit pointer wal =>
      { state with manager := (state.manager.commit pointer wal).1 }
  | .abort pointer abortWal endWal =>
      { state with manager := (state.manager.abort pointer abortWal endWal).1 }
  | .readNext =>
      { state with reads := ⟨state.manager.nextTxnId, none⟩ :: state.reads }
  | .readOldest index =>
      match state.reads[index]? with
      | some ⟨xmax, none⟩ =>
          { state with
            reads := state.reads.set index ⟨xmax, some (state.manager.readXmin xmax)⟩ }
      | _ => state
  | .readActive index =>
      match state.reads[index]? with
      | some ⟨xmax, some xmin⟩ =>
          { state with
            reads := state.reads.eraseIdx index
            taken :=
              ⟨Snapshot.make xmin xmax state.manager.registry.getActiveTransactions,
                state.manager.registry⟩ :: state.taken }
      | _ => state

/-- When the oldest active transaction is read, every identifier below the
counter that was read before has been registered. -/
def RegisteredBelow (state : InterleavedManager) : ManagerStep → Prop
  | .readOldest index => ∀ read, state.reads[index]? = some read →
      ∀ id ∈ state.begun, read.xmax ≤ id
  | _ => True

end InterleavedManager

namespace TransactionRegistry

/-- The state of a transaction is final. -/
def Finished (registry : TransactionRegistry) (id : Nat) : Prop :=
  ∃ state, registry.lookup id = some state ∧ isUnfinished state = false

def Advances (registry next : TransactionRegistry) : Prop :=
  ∀ id state, registry.lookup id = some state → next.lookup id = some state ∨ state = .active

theorem Advances.refl (registry : TransactionRegistry) : Advances registry registry :=
  fun _ _ found => Or.inl found

variable {registry : TransactionRegistry} {id : Nat}

theorem Advances.lookup_finished {next : TransactionRegistry}
    (advances : Advances registry next) {state : TransactionState}
    (found : registry.lookup id = some state)
    (final : isUnfinished state = false) : next.lookup id = some state := by
  rcases advances id state found with kept | rfl
  · exact kept
  · contradiction

theorem Advances.finished {next : TransactionRegistry}
    (advances : Advances registry next) (finished : registry.Finished id) : next.Finished id := by
  obtain ⟨state, found, final⟩ := finished
  exact ⟨state, advances.lookup_finished found final, final⟩

theorem advances_register (fresh : id ∉ registry) :
    Advances registry (registry.registerTransaction id) := by
  intro other state found
  have ne : other ≠ id := by
    rintro rfl
    rw [AList.lookup_eq_none.mpr fresh] at found
    contradiction
  rw [lookup_registerTransaction_ne _ _ ne]
  exact Or.inl found

theorem advances_updateState (active : registry.lookup id = some .active)
    (state : TransactionState) : Advances registry (registry.updateState id state) := by
  intro other previous found
  by_cases same : other = id
  · subst same
    rw [active] at found
    exact Or.inr (Option.some.inj found).symm
  · rw [lookup_updateState_ne _ _ same]
    exact Or.inl found

end TransactionRegistry

namespace TransactionManager

def ObjectsAgree (manager : TransactionManager) : Prop :=
  ∀ id transaction, manager.transactions.lookup id = some transaction →
    transaction.id = id ∧ manager.registry.lookup id = some transaction.state

structure Ends (manager next : TransactionManager) : Prop where
  nextTxnId_eq : next.nextTxnId = manager.nextTxnId
  agree : next.ObjectsAgree
  known : ∀ id, id ∈ next.registry ↔ id ∈ manager.registry
  advances : manager.registry.Advances next.registry

variable {manager : TransactionManager}

section

variable (agree : manager.ObjectsAgree)

include agree

theorem ObjectsAgree.ends {next : TransactionManager} {call : TransactionCall}
    (effect : RegistryEffect manager next call)
    (noBegin : ∀ isoLevel wal, call ≠ .begin isoLevel wal) : Ends manager next := by
  have agreeing := effect.object_state agree
  cases effect with
  | unchanged counter registry =>
    refine ⟨counter, agreeing, fun id => ?_, ?_⟩
    · rw [registry]
    · rw [registry]
      exact .refl _
  | registered isoLevel wal isBegin => exact absurd isBegin (noBegin isoLevel wal)
  | finished id state _ counter active registry =>
    refine ⟨counter, agreeing, fun other => ?_, ?_⟩
    · rw [registry, mem_updateState active]
    · rw [registry]
      exact TransactionRegistry.advances_updateState active state

theorem ObjectsAgree.registerBegun (id : Nat) (isoLevel : IsolationLevel) (wal : WalReply) :
    (manager.registerBegun id isoLevel wal).ObjectsAgree := by
  unfold TransactionManager.registerBegun
  intro other object found
  rcases AList.lookup_insert_cases found with ⟨rfl, rfl⟩ | ⟨same, found⟩
  · cases wal with
    | absent | appended lsn | throws => exact ⟨rfl, AList.lookup_insert _⟩
  obtain ⟨objectId, registered⟩ := agree other object found
  refine ⟨objectId, ?_⟩
  rw [TransactionRegistry.lookup_registerTransaction_ne _ _ same]
  exact registered

end

/-- Every known transaction below the oldest active one is finished. -/
theorem finished_of_lt_readXmin {xmax id : Nat} (valid : invalidTransactionID ∉ manager.registry)
    (known : id ∈ manager.registry) (below : id < manager.readXmin xmax)
    (inside : id < xmax) : manager.registry.Finished id := by
  obtain ⟨state, found⟩ := Option.isSome_iff_exists.mp (AList.lookup_isSome.mpr known)
  refine ⟨state, found, ?_⟩
  by_contra unfinished
  have active : id ∈ manager.registry.getActiveTransactions :=
    (TransactionRegistry.mem_getActiveTransactions _ _).mpr
    ⟨state, found, by simpa using unfinished⟩
  cases oldest : manager.registry.getActiveTransactions.min? with
  | none =>
    rw [List.min?_eq_none_iff.mp oldest] at active
    contradiction
  | some first =>
    obtain ⟨mem, least⟩ := List.min?_eq_some_iff.mp oldest
    have firstLe := least id active
    have lower : manager.registry.getOldestActiveTransaction = first := by
      rw [TransactionRegistry.getOldestActiveTransaction, oldest]
      rfl
    unfold readXmin at below
    rw [lower] at below
    dsimp only at below
    split_ifs at below with clamped
    · rcases clamped with none | beyond
      · subst none
        obtain ⟨_, here, _⟩ := (TransactionRegistry.mem_getActiveTransactions _ _).mp mem
        exact valid (mem_registry_of_lookup here)
      · omega
    · omega

end TransactionManager

namespace InterleavedManager

structure ReadSound (state : InterleavedManager) (read : SnapshotRead) : Prop where
  xmax_le : read.xmax ≤ state.manager.nextTxnId
  below : ∀ xmin, read.xmin = some xmin → xmin ≤ read.xmax ∧ (∀ id ∈ state.begun, read.xmax ≤ id) ∧
    ∀ id, 1 ≤ id → id < xmin → state.manager.registry.Finished id

structure TakenSound (state : InterleavedManager) (taken : TakenSnapshot) : Prop where
  finished : ∀ id, 1 ≤ id → taken.snapshot.isActive id = false → taken.registry.Finished id
  advances : ∀ id found, taken.registry.lookup id = some found → TransactionRegistry.isUnfinished
    found = false → state.manager.registry.lookup id = some found

structure Sound (state : InterleavedManager) : Prop where
  agree : state.manager.ObjectsAgree
  begun_nodup : state.begun.Nodup
  known_iff : ∀ id, id ∈ state.manager.registry ↔
    1 ≤ id ∧ id < state.manager.nextTxnId ∧ id ∉ state.begun
  begun_lt : ∀ id ∈ state.begun, 1 ≤ id ∧ id < state.manager.nextTxnId
  next_pos : 1 ≤ state.manager.nextTxnId
  reads : ∀ read ∈ state.reads, ReadSound state read
  taken : ∀ taken ∈ state.taken, TakenSound state taken

theorem ReadSound.mono {state after : InterleavedManager} {read : SnapshotRead}
    (sound : ReadSound state read) (counter : state.manager.nextTxnId ≤ after.manager.nextTxnId)
    (begun : ∀ id ∈ after.begun, id ∈ state.begun ∨ state.manager.nextTxnId ≤ id)
    (advances : state.manager.registry.Advances after.manager.registry) : ReadSound after read := by
  refine ⟨sound.xmax_le.trans counter, ?_⟩
  intro xmin known
  obtain ⟨xminLe, registered, finished⟩ := sound.below xmin known
  refine ⟨xminLe, ?_, ?_⟩
  · intro id mem
    rcases begun id mem with old | fresh
    · exact registered id old
    · exact sound.xmax_le.trans fresh
  · intro id positive inside
    exact advances.finished (finished id positive inside)

theorem TakenSound.mono {state after : InterleavedManager}
    {taken : TakenSnapshot} (sound : TakenSound state taken)
    (advances : state.manager.registry.Advances after.manager.registry) :
    TakenSound after taken := by
  refine ⟨sound.finished, ?_⟩
  intro id found here final
  exact advances.lookup_finished (sound.advances id found here final) final

theorem sound_initial : Sound {} where
  agree := TransactionManager.consistent_initial.object_state
  begun_nodup := List.nodup_nil
  known_iff := by
    intro id
    rw [TransactionManager.consistent_initial.registered_iff]
    simp
  begun_lt := by
    intro id mem
    contradiction
  next_pos := TransactionManager.consistent_initial.next_pos
  reads := by
    intro read mem
    contradiction
  taken := by
    intro taken mem
    contradiction

section Steps

variable {state : InterleavedManager} (sound : Sound state)
include sound

theorem Sound.takeId : Sound (state.step .takeId) := by
  have positive := sound.next_pos
  have fresh : state.manager.nextTxnId ∉ state.begun := by
    intro mem
    have bounds := sound.begun_lt _ mem
    omega
  constructor
  case agree => exact sound.agree
  case begun_nodup => exact List.nodup_cons.mpr ⟨fresh, sound.begun_nodup⟩
  case known_iff =>
    intro id
    refine (sound.known_iff id).trans ?_
    dsimp only [step, TransactionManager.takeId]
    rw [List.mem_cons]
    constructor
    · rintro ⟨bound, inside, absent⟩
      refine ⟨bound, by omega, ?_⟩
      rintro (rfl | mem)
      · exact lt_irrefl _ inside
      · exact absent mem
    · rintro ⟨bound, inside, absent⟩
      rw [not_or] at absent
      exact ⟨bound, by omega, absent.2⟩
  case begun_lt =>
    intro id mem
    dsimp only [step, TransactionManager.takeId] at mem ⊢
    rcases List.mem_cons.mp mem with rfl | old
    · omega
    · have bounds := sound.begun_lt id old
      omega
  case next_pos =>
    dsimp only [step, TransactionManager.takeId]
    omega
  case reads =>
    intro read mem
    refine (sound.reads read mem).mono (Nat.le_succ _) ?_ (.refl _)
    intro id begun
    rcases List.mem_cons.mp begun with rfl | old
    · exact Or.inr le_rfl
    · exact Or.inl old
  case taken =>
    intro taken mem
    exact (sound.taken taken mem).mono (.refl _)

theorem Sound.register (id : Nat) (isoLevel : IsolationLevel)
    (wal : WalReply) : Sound (state.step (.register id isoLevel wal)) := by
  dsimp only [step]
  by_cases begun : id ∈ state.begun
  · rw [if_pos begun]
    have bounds := sound.begun_lt id begun
    have unknown : id ∉ state.manager.registry := by
      intro known
      exact ((sound.known_iff id).mp known).2.2 begun
    have advances : state.manager.registry.Advances (state.manager.registerBegun id isoLevel
        wal).registry := TransactionRegistry.advances_register unknown
    constructor
    case agree => exact sound.agree.registerBegun id isoLevel wal
    case begun_nodup => exact sound.begun_nodup.erase id
    case known_iff =>
      intro other
      dsimp only [TransactionManager.registerBegun]
      rw [TransactionRegistry.registerTransaction, AList.mem_insert,
        sound.known_iff, sound.begun_nodup.mem_erase_iff]
      constructor
      · rintro (rfl | ⟨bound, inside, absent⟩)
        · exact ⟨bounds.1, bounds.2, fun mem => mem.1 rfl⟩
        · exact ⟨bound, inside, fun mem => absent mem.2⟩
      · rintro ⟨bound, inside, absent⟩
        by_cases same : other = id
        · exact Or.inl same
        · exact Or.inr ⟨bound, inside, fun mem => absent ⟨same, mem⟩⟩
    case begun_lt =>
      intro other mem
      exact sound.begun_lt other (List.mem_of_mem_erase mem)
    case next_pos => exact sound.next_pos
    case reads =>
      intro read mem
      exact (sound.reads read mem).mono le_rfl
        (fun other kept => Or.inl (List.mem_of_mem_erase kept)) advances
    case taken =>
      intro taken mem
      exact (sound.taken taken mem).mono advances
  · rw [if_neg begun]
    exact sound

theorem Sound.ends {next : TransactionManager} (ends : TransactionManager.Ends state.manager next) :
    Sound { state with manager := next } := by
  constructor
  case agree => exact ends.agree
  case begun_nodup => exact sound.begun_nodup
  case known_iff =>
    intro id
    rw [ends.known, ends.nextTxnId_eq]
    exact sound.known_iff id
  case begun_lt =>
    rw [ends.nextTxnId_eq]
    exact sound.begun_lt
  case next_pos =>
    rw [ends.nextTxnId_eq]
    exact sound.next_pos
  case reads =>
    intro read mem
    exact (sound.reads read mem).mono (le_of_eq ends.nextTxnId_eq.symm)
      (fun _ => Or.inl) ends.advances
  case taken =>
    intro taken mem
    exact (sound.taken taken mem).mono ends.advances

theorem Sound.reading {reads : List SnapshotRead} {taken : List TakenSnapshot}
    (readsSound : ∀ read ∈ reads, ReadSound state read)
    (takenSound : ∀ snapshot ∈ taken, TakenSound state snapshot) :
    Sound { state with reads := reads, taken := taken } := by
  constructor
  case agree => exact sound.agree
  case begun_nodup => exact sound.begun_nodup
  case known_iff => exact sound.known_iff
  case begun_lt => exact sound.begun_lt
  case next_pos => exact sound.next_pos
  case reads =>
    intro read mem
    exact (readsSound read mem).mono le_rfl (fun _ => Or.inl) (.refl _)
  case taken =>
    intro snapshot mem
    exact (takenSound snapshot mem).mono (.refl _)

theorem Sound.readNext : Sound (state.step .readNext) := by
  refine sound.reading ?_ sound.taken
  intro read mem
  rcases List.mem_cons.mp mem with rfl | old
  · refine ⟨le_rfl, ?_⟩
    intro xmin never
    contradiction
  · exact sound.reads read old

theorem Sound.readOldest {index : Nat} (registered : state.RegisteredBelow (.readOldest index)) :
    Sound (state.step (.readOldest index)) := by
  dsimp only [step]
  split
  · rename_i xmax here
    have mem := List.mem_of_getElem? here
    have xmaxLe := (sound.reads _ mem).xmax_le
    have begunAbove := registered _ here
    dsimp only at xmaxLe begunAbove
    refine sound.reading ?_ sound.taken
    intro read now
    rcases List.mem_or_eq_of_mem_set now with old | rfl
    · exact sound.reads read old
    refine ⟨xmaxLe, ?_⟩
    intro xmin same
    cases same
    have xminLe : state.manager.readXmin xmax ≤ xmax := by
      unfold TransactionManager.readXmin
      dsimp only
      split_ifs with clamped
      · exact le_rfl
      · omega
    refine ⟨xminLe, begunAbove, ?_⟩
    intro id positive inside
    have known : id ∈ state.manager.registry := by
      refine (sound.known_iff id).mpr ⟨positive, by omega, ?_⟩
      intro begun
      have above := begunAbove id begun
      omega
    refine TransactionManager.finished_of_lt_readXmin ?_ known inside (by omega)
    intro invalid
    have bounds := (sound.known_iff _).mp invalid
    simp [invalidTransactionID] at bounds
  · exact sound

theorem Sound.readActive (index : Nat) : Sound (state.step (.readActive index)) := by
  dsimp only [step]
  split
  · rename_i xmax xmin here
    have mem := List.mem_of_getElem? here
    have readSound := sound.reads _ mem
    obtain ⟨xminLe, begunAbove, finished⟩ := readSound.below xmin rfl
    have xmaxLe := readSound.xmax_le
    dsimp only at xminLe begunAbove finished xmaxLe
    refine sound.reading ?_ ?_
    · intro read kept
      exact sound.reads read (List.mem_of_mem_eraseIdx kept)
    intro snapshot now
    rcases List.mem_cons.mp now with rfl | old
    · refine ⟨?_, fun _ _ found _ => found⟩
      intro id positive inactive
      rw [← Bool.not_eq_true, Snapshot.isActive_make_iff] at inactive
      by_cases below : id < xmin
      · exact finished id positive below
      have notActive : ¬ (xmax ≤ id ∨ id ∈ state.manager.registry.getActiveTransactions) := fun
          active => inactive ⟨by omega, active⟩
      rw [not_or] at notActive
      have known : id ∈ state.manager.registry := by
        refine (sound.known_iff id).mpr ⟨positive, by omega, ?_⟩
        intro begun
        have above := begunAbove id begun
        omega
      obtain ⟨found, here⟩ := Option.isSome_iff_exists.mp (AList.lookup_isSome.mpr known)
      refine ⟨found, here, ?_⟩
      by_contra unfinished
      exact notActive.2 ((TransactionRegistry.mem_getActiveTransactions _ _).mpr ⟨found, here,
        by simpa using unfinished⟩)
    · exact sound.taken snapshot old
  · exact sound

/-- Every step keeps the registers sound; a read of the oldest transaction
does so when no older transaction is still to be registered. -/
theorem Sound.step (event : ManagerStep) (registered : state.RegisteredBelow event) :
    Sound (state.step event) := by
  cases event with
  | takeId => exact sound.takeId
  | register id isoLevel wal => exact sound.register id isoLevel wal
  | commit pointer wal =>
    have effect := TransactionManager.registryEffect_commit sound.agree pointer wal
    exact sound.ends (sound.agree.ends effect nofun)
  | abort pointer abortWal endWal =>
    have effect := TransactionManager.registryEffect_abort sound.agree pointer abortWal endWal
    exact sound.ends (sound.agree.ends effect nofun)
  | readNext => exact sound.readNext
  | readOldest index => exact sound.readOldest registered
  | readActive index => exact sound.readActive index

theorem Sound.committed_when_taken {taken : TakenSnapshot} {id : Nat} (mem : taken ∈ state.taken)
    (inactive : taken.snapshot.isActive id = false)
    (committed : state.manager.registry.isCommitted id = true) :
    taken.registry.isCommitted id = true := by
  simp only [TransactionRegistry.isCommitted, TransactionRegistry.getState,
    beq_iff_eq] at committed ⊢
  have positive := ((sound.known_iff id).mp (TransactionManager.mem_registry_of_lookup committed)).1
  obtain ⟨finished, advances⟩ := sound.taken taken mem
  obtain ⟨found, here, final⟩ := finished id positive inactive
  rw [advances id found here final] at committed
  rw [here, committed]

end Steps

open GuardedRuns

/-- In every interleaving in which the oldest active transaction is read only
when all transactions below the counter are registered, a snapshot treats as
visible only transactions that had committed when it was returned. -/
theorem visible_only_committed_when_taken (events : List ManagerStep)
    (guarded : Along step RegisteredBelow {} events) :
    ∀ taken ∈ (run step {} events).taken, ∀ id, taken.snapshot.isActive id = false →
      (run step {} events).manager.registry.isCommitted id = true →
      taken.registry.isCommitted id = true := by
  have sound : Sound (run step {} events) :=
    Along.run_invariant (fun state event holds registered =>
      Sound.step holds event registered) sound_initial guarded
  intro taken member id
  exact sound.committed_when_taken member

/-- A transaction that is active during the snapshot commits later. -/
def lateCommit : List ManagerStep :=
  [.takeId, .register 1 .readCommitted .absent, .readNext, .readOldest 0,
    .readActive 0, .commit (some 1) .absent]

theorem visible_only_committed_when_taken_late :
    Along step RegisteredBelow {} lateCommit ∧
      ∀ taken ∈ (run step {} lateCommit).taken, ∀ id, taken.snapshot.isActive id = false →
        (run step {} lateCommit).manager.registry.isCommitted id = true →
        taken.registry.isCommitted id = true := by
  have guarded : Along step RegisteredBelow {} lateCommit := by
    refine ⟨trivial, trivial, trivial, ?_, trivial, trivial, trivial⟩
    intro read _ id begun
    contradiction
  exact ⟨guarded, visible_only_committed_when_taken lateCommit guarded⟩

/-- A snapshot is taken between the two steps of `begin`. -/
def snapshotDuringBegin : List ManagerStep :=
  [.takeId, .readNext, .readOldest 0, .readActive 0,
    .register 1 .readCommitted .absent, .commit (some 1) .absent]

/-- The transaction was not even registered when the snapshot was returned,
and the snapshot treats it as visible once it has committed. -/
theorem snapshotDuringBegin_visible :
    ∃ taken ∈ (run step {} snapshotDuringBegin).taken, taken.snapshot.isActive 1 = false ∧
        (run step {} snapshotDuringBegin).manager.registry.isCommitted 1 = true ∧
        taken.registry.isCommitted 1 = false := by
  refine ⟨⟨Snapshot.make 2 2 [], ∅⟩, List.mem_cons_self, ?_, ?_, ?_⟩
  · decide
  · decide
  · decide

end InterleavedManager

end KlyroDB
