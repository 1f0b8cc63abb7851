import KlyroDB.LockSafety

/-!
# The strength of granted locks

A re-request that is merely compatible with the held mode keeps the held mode,
and an upgrade overwrites it.
-/

namespace KlyroDB

namespace LockMode

/-- Everything the second mode excludes, the first one excludes too. -/
def Covers (recorded other : LockMode) : Prop :=
  ∀ mode, isCompatible other mode = false → isCompatible recorded mode = false

instance (recorded other : LockMode) : Decidable (Covers recorded other) :=
  decidable_of_iff (∀ mode ∈ [shared, exclusive, intentShared, intentExclusive,
      sharedIntentExclusive], isCompatible other mode = false → isCompatible recorded mode = false)
    ⟨fun checked mode => checked mode (by cases mode <;> simp), fun covers mode _ => covers mode⟩

def afterLock (held : Option LockMode) (mode : LockMode) : LockMode :=
  match held with
  | none => mode
  | some held => if held = mode ∨ isCompatible mode held = true then held else mode

/-- The combinations of held and requested mode for which a call that
returns from its first section keeps both strengths. -/
def lockKeepsStrength (held : Option LockMode) (mode : LockMode) : Bool :=
  match held, mode with
  | none, _ => true
  | some _, .exclusive => true
  | some held, .intentShared => held != .exclusive
  | some held, .sharedIntentExclusive => held == .sharedIntentExclusive || held == .intentExclusive
      || held == .shared
  | some held, mode => held == mode

/-- The same for a call that is granted from the wait queue, where the
requested mode always replaces the held one. -/
def grantKeepsStrength (held : Option LockMode) (mode : LockMode) : Bool :=
  match held, mode with
  | none, _ => true
  | some .intentShared, _ => true
  | some _, .exclusive => true
  | some held, .sharedIntentExclusive => held != .exclusive
  | some held, mode => held == mode

theorem lockKeepsStrength_iff (held : Option LockMode) (mode : LockMode) :
    (Covers (afterLock held mode) mode ∧
        ∀ old, held = some old → Covers (afterLock held mode) old) ↔
      lockKeepsStrength held mode = true := by
  cases held with
  | none => cases mode <;> simp [lockKeepsStrength, afterLock] <;> decide
  | some old =>
    simp only [Option.some.injEq, forall_eq']
    cases old <;> cases mode <;> decide

theorem grantKeepsStrength_iff (held : Option LockMode) (mode : LockMode) :
    (Covers mode mode ∧ ∀ old, held = some old → Covers mode old) ↔
      grantKeepsStrength held mode = true := by
  cases held with
  | none => cases mode <;> simp [grantKeepsStrength] <;> decide
  | some old =>
    simp only [Option.some.injEq, forall_eq']
    cases old <;> cases mode <;> decide

end LockMode

namespace LockManager

theorem heldMode_setState_grant (manager : LockManager)
    (resource : LockResource) (state : LockState) (txnId : Nat) (mode : LockMode) :
    (manager.setState resource (state.grant txnId mode)).heldMode resource txnId = some mode := by
  unfold heldMode
  rw [state_setState, if_pos rfl]
  exact AList.lookup_insert _

variable {manager : LockManager} {call : LockCall}

theorem resume_ok (success : (manager.resume call).2 = .returned .ok) :
    (manager.resume call).1.heldMode call.resource call.txnId = some call.mode ∧
      (manager.state call.resource).canGrant call.mode = true := by
  revert success
  unfold resume
  dsimp only
  split_ifs with aborted grantable
  · simp
  · intro _
    constructor
    · unfold heldMode settle
      change ((setState manager call.resource _).state call.resource).holders.lookup call.txnId = _
      rw [state_setState, if_pos rfl]
      exact AList.lookup_insert _
    · exact LockState.canGrant_of_isGrantable grantable
  · simp

theorem expire_ok (success : (manager.expire call).2 = .returned .ok) :
    (manager.expire call).1.heldMode call.resource call.txnId = some call.mode := by
  cases result : manager.resume call with
  | mk resumed outcome =>
    cases outcome with
    | waiting => simp [expire, result] at success
    | returned status =>
      have same : manager.expire call = manager.resume call := by simp [expire, result]
      rw [same] at success ⊢
      exact (resume_ok success).1

theorem enqueue_ok {enumeration : Enumeration} {state : LockState}
    (success : (manager.enqueue enumeration call state).2 = .returned .ok) :
    (manager.enqueue enumeration call state).1.heldMode call.resource call.txnId = some call.mode ∧
      state.canGrant call.mode = true := by
  revert success
  unfold enqueue
  dsimp only
  split_ifs with isVictim
  · simp
  intro success
  obtain ⟨recorded, grantable⟩ := resume_ok success
  refine ⟨recorded, ?_⟩
  change ((setState manager call.resource state).state
    call.resource).canGrant call.mode = true at grantable
  rwa [state_setState, if_pos rfl] at grantable

theorem lock_ok {manager : LockManager} {enumeration : Enumeration} {call : LockCall}
    (success : (manager.lock enumeration call).2 = .returned .ok) :
    (manager.lock enumeration call).1.heldMode call.resource call.txnId = some (LockMode.afterLock
        (manager.heldMode call.resource call.txnId) call.mode) := by
  revert success
  cases holds : manager.heldMode call.resource call.txnId with
  | none =>
    have lookup : (manager.state call.resource).holders.lookup call.txnId = none := holds
    simp only [lock, lookup, LockMode.afterLock]
    split_ifs with grantable
    · exact fun _ => heldMode_setState_grant manager _ _ _ _
    · exact fun success => (enqueue_ok success).1
  | some held =>
    have lookup : (manager.state call.resource).holders.lookup call.txnId = some held := holds
    simp only [lock, lookup, LockMode.afterLock]
    split_ifs with keeps upgradable
    · exact fun _ => lookup
    · exact fun _ => heldMode_setState_grant manager _ _ _ _
    intro success
    have grantable := (enqueue_ok success).2
    have compatible := LockState.isCompatible_of_canGrant grantable lookup
    rw [isCompatible_comm] at compatible
    exact absurd (Or.inr compatible) keeps

end LockManager

namespace LockSystem

theorem continueWith_returned {system next : LockSystem} {index : Nat}
    {call returned : LockCall} {status : Status} {result : LockManager × LockOutcome}
    (completes : system.continueWith index call result = (next, some (returned, status))) :
    returned = call ∧ result.2 = .returned status ∧ next.manager = result.1 := by
  obtain ⟨manager, outcome⟩ := result
  cases outcome with
  | waiting => simp [continueWith] at completes
  | returned => 
      obtain ⟨rfl, rfl, rfl⟩ := completes
      exact ⟨rfl, rfl, rfl⟩

def recordedMode (event : LockEvent) (held : Option LockMode) (mode : LockMode) : LockMode :=
  match event with
  | .lock _ _ => LockMode.afterLock held mode
  | _ => mode

/-- The combinations of held and requested mode for which a successful call
keeps both strengths, by the section it returns from. -/
def keepsStrength (event : LockEvent) (held : Option LockMode) (mode : LockMode) : Bool :=
  match event with
  | .lock _ _ => LockMode.lockKeepsStrength held mode
  | _ => LockMode.grantKeepsStrength held mode

theorem heldMode_step_ok {system next : LockSystem} {event : LockEvent}
    {call : LockCall} (success : system.step event = (next, some (call, .ok))) :
    next.manager.heldMode call.resource call.txnId = some (recordedMode event
        (system.manager.heldMode call.resource call.txnId) call.mode) := by
  cases event with
  | lock requested enumeration =>
    have recorded := @LockManager.lock_ok system.manager enumeration requested
    rw [step] at success
    generalize system.manager.lock enumeration requested = result at recorded success
    obtain ⟨manager, outcome⟩ := result
    cases outcome with
    | waiting => simp at success
    | returned status =>
      obtain ⟨rfl, rfl, rfl⟩ := success
      exact recorded rfl
  | wake index =>
    rw [step] at success
    cases waits : system.waiting[index]? with
    | none => simp [waits] at success
    | some waiting =>
      simp only [waits] at success
      obtain ⟨rfl, returned, same⟩ := continueWith_returned success
      rw [same]
      exact (LockManager.resume_ok returned).1
  | expire index =>
    rw [step] at success
    cases waits : system.waiting[index]? with
    | none => simp [waits] at success
    | some waiting =>
      simp only [waits] at success
      split_ifs at success with timed
      · obtain ⟨rfl, returned, same⟩ := continueWith_returned success
        rw [same]
        exact LockManager.expire_ok returned
      · simp at success
  | unlock txnId resource | removeTransaction txnId => simp [step] at success

/-- In every reachable state, a successful `lock` call leaves its transaction
with a mode that excludes all that the requested mode and the previously held
mode exclude, exactly for the tabulated combinations of the two. -/
theorem recorded_covers_iff_keepsStrength (numShards : Nat)
    (history : List LockEvent) (event : LockEvent) (call : LockCall) (next : LockSystem)
    (success : (run numShards history).step event = (next, some (call, .ok))) :
    (∃ recorded, next.manager.heldMode call.resource call.txnId = some recorded ∧
      LockMode.Covers recorded call.mode ∧
      ∀ held, (run numShards history).manager.heldMode call.resource
          call.txnId = some held → LockMode.Covers recorded held) ↔
      keepsStrength event ((run numShards history).manager.heldMode
        call.resource call.txnId) call.mode = true := by
  rw [heldMode_step_ok success]
  simp only [Option.some.injEq, exists_eq_left']
  cases event with
  | lock => exact LockMode.lockKeepsStrength_iff _ _
  | _ => exact LockMode.grantKeepsStrength_iff _ _

/-- An upgrade from shared to exclusive by the only holder. -/
theorem recorded_covers_upgrade :
    ∃ recorded,
      (run 64 [lockTable 1 .shared, lockTable 1 .exclusive]).manager.heldMode
        { type := .table } 1 = some recorded ∧
      LockMode.Covers recorded .exclusive ∧
      ∀ held, (run 64 [lockTable 1 .shared]).manager.heldMode { type := .table } 1 = some held →
        LockMode.Covers recorded held :=
  (recorded_covers_iff_keepsStrength 64 [lockTable 1 .shared] (lockTable 1 .exclusive)
    ⟨1, { type := .table }, .exclusive, false⟩ _ rfl).mpr (by decide +kernel)

/-- A holder of the intention-shared mode asks for the shared mode, is told
that it holds it, and still admits a writer below; a holder of the exclusive
mode asks for the shared mode and loses the exclusive one. -/
theorem lock_success_weaker :
    (((run 64 [lockTable 1 .intentShared]).step (lockTable 1 .shared)).2 =
        some (⟨1, { type := .table }, .shared, false⟩, .ok) ∧
      (run 64 [lockTable 1 .intentShared, lockTable 1 .shared]).manager.heldMode
        { type := .table } 1 = some .intentShared ∧
      ¬ LockMode.Covers .intentShared .shared) ∧
    ((run 64 [lockTable 1 .exclusive]).step (lockTable 1 .shared)).2 =
        some (⟨1, { type := .table }, .shared, false⟩, .ok) ∧
      (run 64 [lockTable 1 .exclusive, lockTable 1 .shared]).manager.heldMode
        { type := .table } 1 = some .shared ∧
      ¬ LockMode.Covers .shared .exclusive := by
  refine ⟨⟨?_, ?_, ?_⟩, ⟨?_, ?_, ?_⟩⟩ <;> decide +kernel

theorem canGrant_iff {state : LockState} {txnId : Nat} {mode : LockMode}
    (others : ∀ other held, state.holders.lookup other = some held → other ≠ txnId →
      isCompatible held mode = true) :
    state.canGrant mode = true ↔
      ∀ held, state.holders.lookup txnId = some held → isCompatible held mode = true := by
  constructor
  · intro grantable held own
    exact LockState.isCompatible_of_canGrant grantable own
  intro own
  rw [LockState.canGrant, List.all_eq_true]
  rintro ⟨other, held⟩ mem
  have holds : state.holders.lookup other = some held := AList.mem_lookup_iff.mpr mem
  by_cases same : other = txnId
  · exact own held (same ▸ holds)
  · exact others other held holds same

/-- A request at the front of the queue that all other holders admit ends its
wait exactly when the mode its own transaction still holds admits it too: the
wait predicate does not leave the requester out. -/
theorem front_request_returns_iff (numShards : Nat) (events : List LockEvent)
    (call : LockCall) (request : LockRequest)
    (front : ((run numShards events).manager.state call.resource).waiters.head? = some request)
    (ownRequest : request.txnId = call.txnId) (sameMode : request.mode = call.mode)
    (others : ∀ other held,
      (run numShards events).manager.heldMode call.resource other = some held →
      other ≠ request.txnId → isCompatible held request.mode = true) :
    ((run numShards events).manager.resume call).2 ≠ .waiting ↔
      ((run numShards events).manager.state call.resource).isAborted request.txnId = true ∨
      ∀ held, (run numShards events).manager.heldMode call.resource request.txnId = some held →
        isCompatible held request.mode = true := by
  unfold LockManager.heldMode at others ⊢
  rw [← canGrant_iff others, LockManager.resume, ← ownRequest, ← sameMode]
  generalize (run numShards events).manager.state call.resource = state at front
  have grantable : state.isGrantable request.txnId request.mode = state.canGrant request.mode := by
    simp [LockState.isGrantable, front]
  by_cases aborted : state.isAborted request.txnId = true
  · simp [aborted]
  · by_cases admitted : state.canGrant request.mode = true
    · simp [aborted, grantable, admitted]
    · simp [aborted, grantable, admitted]

/-- A writer waits for a reader that then releases. -/
def releasedReader : List LockEvent :=
  [lockTable 1 .shared, lockTable 2 .exclusive, .unlock 1 { type := .table }]

theorem front_request_returns_writer :
    ((run 64 releasedReader).manager.resume ⟨2, { type := .table }, .exclusive, false⟩).2 ≠
      .waiting := by
  have nobody : ∀ other, (run 64 releasedReader).manager.heldMode { type := .table } other =
      none := fun _ => rfl
  apply (front_request_returns_iff 64 releasedReader ⟨2, { type := .table }, .exclusive, false⟩
    ⟨2, .exclusive, false⟩ (by decide +kernel) rfl rfl ?_).mpr
  · right
    intro held found
    cases (nobody 2).symm.trans found
  · intro other held found
    cases (nobody other).symm.trans found

/-- Two readers; the first one waits for an upgrade, the second one releases,
and the upgrade keeps waiting for its own shared lock. -/
theorem upgrade_blocked_by_itself :
    let system := run 64 [lockTable 1 .shared, lockTable 2 .shared, lockTable 1 .exclusive,
      .unlock 2 { type := .table }]
    (system.manager.state { type := .table }).waiters.head? = some ⟨1, .exclusive, false⟩ ∧
      (system.manager.state { type := .table }).holders.entries = [⟨1, .shared⟩] ∧
      (system.manager.resume ⟨1, { type := .table }, .exclusive, false⟩).2 = .waiting := by
  refine ⟨?_, ?_, ?_⟩ <;> decide +kernel

end LockSystem

end KlyroDB
