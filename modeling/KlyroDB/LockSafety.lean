import KlyroDB.LockManager
import KlyroDB.MapUpdates
import Mathlib.Data.List.Induction

/-!
# Safety of the lock table

Every section changes the holders of a resource in one of three ways: not at
all, by granting a mode that is compatible with all other holders, or by
releasing one transaction.
-/

namespace KlyroDB

abbrev Holders := AList fun _ : Nat => LockMode

inductive HolderEffect (before after : Holders) : Prop
  | unchanged (same : after = before)
  | granted (txnId : Nat) (mode : LockMode) (others : ∀ other held, before.lookup other = some held
      → other ≠ txnId → isCompatible held mode = true) (inserted : after = before.insert txnId mode)
  | released (txnId : Nat) (erased : after = before.erase txnId)

def HoldersCompatible (holders : Holders) : Prop :=
  ∀ first second firstMode secondMode, first ≠ second → holders.lookup first = some firstMode →
    holders.lookup second = some secondMode → isCompatible firstMode secondMode = true

theorem holdersCompatible_effect {before after : Holders} (effect : HolderEffect before after)
    (compatible : HoldersCompatible before) : HoldersCompatible after := by
  intro first second firstMode secondMode ne firstHeld secondHeld
  cases effect with
  | unchanged same =>
    subst same
    exact compatible _ _ _ _ ne firstHeld secondHeld
  | granted txnId mode others inserted =>
    subst inserted
    rcases AList.lookup_insert_cases firstHeld with ⟨rfl, rfl⟩ | ⟨firstOld, firstKept⟩
    · rw [AList.lookup_insert_ne (Ne.symm ne)] at secondHeld
      rw [isCompatible_comm]
      exact others second secondMode secondHeld (Ne.symm ne)
    rcases AList.lookup_insert_cases secondHeld with ⟨rfl, rfl⟩ | ⟨-, secondHeld⟩
    · exact others first firstMode firstKept firstOld
    · exact compatible _ _ _ _ ne firstKept secondHeld
  | released txnId erased =>
    subst erased
    exact compatible _ _ _ _ ne (AList.lookup_erase_cases firstHeld).2
      (AList.lookup_erase_cases secondHeld).2

namespace LockState

variable {txnId : Nat} {mode : LockMode} {state : LockState}

theorem mem_entries_of_lookup {holders : Holders} (held : holders.lookup txnId = some mode) :
    (⟨txnId, mode⟩ : Sigma fun _ : Nat => LockMode) ∈ holders.entries :=
  AList.mem_lookup_iff.mp held

theorem isCompatible_of_canGrant {held : LockMode} (grantable : state.canGrant mode = true)
    (holds : state.holders.lookup txnId = some held) : isCompatible held mode = true :=
  List.all_eq_true.mp grantable _ (mem_entries_of_lookup holds)

theorem isCompatible_of_canUpgrade {held : LockMode} {other : Nat}
    (upgradable : state.canUpgrade txnId mode = true)
    (holds : state.holders.lookup other = some held) (ne : other ≠ txnId) :
    isCompatible held mode = true := by
  have checked := List.all_eq_true.mp upgradable _ (mem_entries_of_lookup holds)
  simpa [ne] using checked

theorem canGrant_of_isGrantable (grantable : state.isGrantable txnId mode = true) :
    state.canGrant mode = true := by
  unfold isGrantable at grantable
  split at grantable
  · exact (Bool.and_eq_true_iff.mp grantable).2
  · cases grantable

theorem holderEffect_grant (others : ∀ other held, state.holders.lookup other = some held →
      other ≠ txnId → isCompatible held mode = true) :
    HolderEffect state.holders (state.grant txnId mode).holders :=
  .granted txnId mode others rfl

end LockState

namespace LockManager

def SectionEffect (before after : LockManager) : Prop :=
  ∀ resource, HolderEffect (before.state resource).holders (after.state resource).holders

section

variable (manager : LockManager)

include manager

theorem getShard_eq_of_canonical_eq {first second : LockResource}
    (same : first.canonical = second.canonical) :
    manager.getShard first = manager.getShard second := by
  unfold getShard
  rw [LockResource.hash_eq_of_canonical_eq same]

theorem state_setState (resource other : LockResource) (state : LockState) :
    (manager.setState resource state).state other =
      if other.canonical = resource.canonical then state
      else manager.state other := by
  have sameShard : (manager.setState resource state).getShard other = manager.getShard other := rfl
  unfold LockManager.state
  rw [sameShard]
  by_cases same : other.canonical = resource.canonical
  · rw [getShard_eq_of_canonical_eq manager same, if_pos same, same]
    simp [setState]
  · rw [if_neg same]
    by_cases index : manager.getShard other = manager.getShard resource
    · simp [setState, index, AList.lookup_insert_ne same]
    · simp [setState, Function.update_of_ne index]

theorem state_eraseState (resource other : LockResource) :
    (manager.eraseState resource).state other =
      if other.canonical = resource.canonical then {}
      else manager.state other := by
  have sameShard : (manager.eraseState resource).getShard other = manager.getShard other := rfl
  unfold LockManager.state
  rw [sameShard]
  by_cases same : other.canonical = resource.canonical
  · rw [getShard_eq_of_canonical_eq manager same, if_pos same, same]
    simp [eraseState]
  · rw [if_neg same]
    by_cases index : manager.getShard other = manager.getShard resource
    · simp [eraseState, index, AList.lookup_erase_ne same]
    · simp [eraseState, Function.update_of_ne index]

theorem state_eq_of_canonical_eq {first second : LockResource}
    (same : first.canonical = second.canonical) : manager.state first = manager.state second := by
  unfold LockManager.state
  rw [getShard_eq_of_canonical_eq manager same, same]

theorem sectionEffect_refl : SectionEffect manager manager :=
  fun _ => .unchanged rfl

end

variable {state : LockState}

section

variable (manager : LockManager)

include manager

theorem sectionEffect_setState {resource : LockResource}
    (effect : HolderEffect (manager.state resource).holders state.holders) :
    SectionEffect manager (manager.setState resource state) := by
  intro other
  rw [state_setState]
  by_cases same : other.canonical = resource.canonical
  · rwa [if_pos same, state_eq_of_canonical_eq manager same]
  · rw [if_neg same]
    exact .unchanged rfl

theorem sectionEffect_settle {call : LockCall}
    (effect : HolderEffect (manager.state call.resource).holders
      state.holders) : SectionEffect manager (manager.settle call state) :=
  sectionEffect_setState manager effect

theorem sectionEffect_resume (call : LockCall) : SectionEffect manager (manager.resume call).1 := by
  unfold resume
  dsimp only
  split_ifs with aborted grantable
  · exact sectionEffect_settle manager (.unchanged rfl)
  · apply sectionEffect_settle manager
    apply LockState.holderEffect_grant
    intro other held holds _
    exact LockState.isCompatible_of_canGrant (LockState.canGrant_of_isGrantable grantable) holds
  · exact sectionEffect_refl manager

theorem sectionEffect_expire (call : LockCall) : SectionEffect manager (manager.expire call).1 := by
  unfold expire
  split
  · exact sectionEffect_settle manager (.unchanged rfl)
  · exact sectionEffect_resume manager call

theorem sectionEffect_enqueue (enumeration : Enumeration) (call : LockCall)
    (sameHolders : state.holders = (manager.state call.resource).holders) :
    SectionEffect manager (manager.enqueue enumeration call state).1 := by
  have holdersKept (graph : WaitForGraph) (resource : LockResource) :
      (({ manager.setState call.resource state with
        waitForGraph := graph } : LockManager).state resource).holders =
        (manager.state resource).holders := by
    change ((manager.setState call.resource state).state resource).holders = _
    rw [state_setState]
    split_ifs with same
    · rw [sameHolders, state_eq_of_canonical_eq manager same]
    · rfl
  unfold enqueue
  dsimp only
  split_ifs with isVictim
  · intro resource
    rw [← holdersKept _ resource]
    apply sectionEffect_settle
    rw [holdersKept]
    exact .unchanged sameHolders
  · intro resource
    rw [← holdersKept _ resource]
    exact sectionEffect_resume _ call resource

theorem sectionEffect_lock (enumeration : Enumeration) (call : LockCall) :
    SectionEffect manager (manager.lock enumeration call).1 := by
  unfold lock
  dsimp only
  split
  · split_ifs with keeps upgradable
    · exact sectionEffect_refl manager
    · apply sectionEffect_setState
      apply LockState.holderEffect_grant
      intro other held holds ne
      exact LockState.isCompatible_of_canUpgrade upgradable holds ne
    · exact sectionEffect_enqueue manager enumeration call rfl
  split_ifs with grantable
  · apply sectionEffect_setState
    apply LockState.holderEffect_grant
    intro other held holds _
    exact LockState.isCompatible_of_canGrant (Bool.and_eq_true_iff.mp grantable).2 holds
  · exact sectionEffect_enqueue manager enumeration call rfl

theorem sectionEffect_unlock (txnId : Nat) (resource : LockResource) :
    SectionEffect manager (manager.unlock txnId resource).1 := by
  unfold unlock
  split
  · exact sectionEffect_refl manager
  rename_i state found
  have current : manager.state resource = state := by simp [LockManager.state, found]
  dsimp only
  split_ifs with notHolder empty
  · exact sectionEffect_refl manager
  · intro other
    rw [state_eraseState]
    split_ifs with same
    · rw [state_eq_of_canonical_eq manager same, current]
      apply HolderEffect.released txnId
      have noKeys := (Bool.and_eq_true_iff.mp empty).1
      apply AList.ext
      simpa [AList.keys, List.keys] using noKeys
    · exact .unchanged rfl
  · apply sectionEffect_setState
    rw [current]
    exact .released txnId rfl

end

end LockManager

namespace LockSystem

theorem run_append_singleton (numShards : Nat) (events : List LockEvent) (event : LockEvent) :
    run numShards (events ++ [event]) = ((run numShards events).step event).1 := by simp [run]

theorem manager_continueWith (system : LockSystem) (index : Nat)
    (call : LockCall) (result : LockManager × LockOutcome) :
    (system.continueWith index call result).1.manager = result.1 := by
  obtain ⟨manager, outcome⟩ := result
  cases outcome <;> rfl

theorem sectionEffect_step (system : LockSystem) (event : LockEvent) :
    LockManager.SectionEffect system.manager (system.step event).1.manager := by
  cases event with
  | lock call enumeration =>
    have effect := system.manager.sectionEffect_lock enumeration call
    rw [step]
    generalize system.manager.lock enumeration call = result at effect ⊢
    obtain ⟨manager, outcome⟩ := result
    cases outcome <;> exact effect
  | wake index =>
    rw [step]
    cases system.waiting[index]? with
    | none => exact LockManager.sectionEffect_refl _
    | some call =>
      rw [manager_continueWith]
      exact LockManager.sectionEffect_resume _ call
  | expire index =>
    rw [step]
    cases system.waiting[index]? with
    | none => exact LockManager.sectionEffect_refl _
    | some call =>
      dsimp only
      split_ifs with timed
      · rw [manager_continueWith]
        exact LockManager.sectionEffect_expire _ call
      · exact LockManager.sectionEffect_refl _
  | unlock txnId resource => exact LockManager.sectionEffect_unlock _ _ _
  | removeTransaction txnId => exact LockManager.sectionEffect_refl _

theorem holdersCompatible_run (numShards : Nat) (events : List LockEvent)
    (resource : LockResource) :
    HoldersCompatible ((run numShards events).manager.state resource).holders := by
  induction events using List.reverseRecOn with
  | nil =>
    intro first second firstMode secondMode _ firstHeld
    have noHolder : (∅ : Holders).lookup first = some firstMode := firstHeld
    simp at noHolder
  | append_singleton events event ih =>
    rw [run_append_singleton]
    exact holdersCompatible_effect (sectionEffect_step (run numShards events) event resource) ih

/-- In every interleaving of sections, two transactions that hold the same
resource hold modes that are compatible in both directions. -/
theorem heldModes_compatible (numShards : Nat) (events : List LockEvent)
    (resource : LockResource) (first second : Nat)
    (firstMode secondMode : LockMode) (different : first ≠ second)
    (firstHeld : (run numShards events).manager.heldMode resource first = some firstMode)
    (secondHeld : (run numShards events).manager.heldMode resource second = some secondMode) :
    isCompatible firstMode secondMode = true ∧ isCompatible secondMode firstMode = true := by
  have compatible := holdersCompatible_run numShards events resource
  exact ⟨compatible _ _ _ _ different firstHeld secondHeld,
    compatible _ _ _ _ different.symm secondHeld firstHeld⟩

/-- A reader and an intending reader of one table. -/
theorem heldModes_compatible_shared :
    isCompatible .shared .intentShared = true ∧ isCompatible .intentShared .shared = true :=
  heldModes_compatible 64
    [lockTable 1 .shared, lockTable 2 .intentShared] { type := .table } 1 2 .shared .intentShared
    (by decide) (by decide +kernel) (by decide +kernel)

end LockSystem

namespace LockManager

theorem releaseAll_eq_foldl_step (system : LockSystem) (txnId : Nat)
    (resources : List LockResource) :
    { system with manager := system.manager.releaseAll txnId resources } =
      (resources.map (LockEvent.unlock txnId) ++ [LockEvent.removeTransaction txnId]).foldl
        (fun state event => (state.step event).1) system := by
  induction resources generalizing system with
  | nil => rfl
  | cons resource rest ih =>
    exact ih { system with
      manager := (system.manager.unlock txnId resource).1 }

theorem heldMode_unlock (manager : LockManager) (txnId other : Nat)
    (resource place : LockResource) :
    (manager.unlock txnId resource).1.heldMode place other =
      if other = txnId ∧ place.canonical = resource.canonical then none
      else manager.heldMode place other := by
  have here (same : place.canonical = resource.canonical) :=
    state_eq_of_canonical_eq manager same
  unfold unlock heldMode
  split
  next missing => grind [LockManager.state, AList.lookup_empty]
  next state found =>
    have current : manager.state resource = state := by simp [LockManager.state, found]
    dsimp only
    split
    · grind
    split
    next empty =>
      have gone : state.holders.erase txnId = ∅ := by
        apply AList.ext
        simpa [AList.keys, List.keys] using (Bool.and_eq_true_iff.mp empty).1
      grind [state_eraseState, AList.lookup_erase_ne, AList.lookup_empty]
    next => grind [state_setState, AList.lookup_erase_ne, AList.lookup_erase]

/-- `release_all` takes the listed resources from the transaction, and no other
lock from anyone. -/
theorem heldMode_releaseAll (manager : LockManager) (txnId other : Nat)
    (resources : List LockResource) (place : LockResource) :
    (manager.releaseAll txnId resources).heldMode place other =
      if other = txnId ∧ place.canonical ∈ resources.map LockResource.canonical then none
      else manager.heldMode place other := by
  induction resources generalizing manager with
  | nil => exact (if_neg (by simp)).symm
  | cons resource rest ih =>
    have later := ih (manager.unlock txnId resource).1
    rw [heldMode_unlock] at later
    refine later.trans ?_
    grind

end LockManager

end KlyroDB
