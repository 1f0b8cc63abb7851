import KlyroDB.GuardedRuns
import KlyroDB.LockSafety
import Mathlib.Logic.Relation

/-!
# Edges of the wait-for graph

A request that starts to wait gets an edge to every other holder of its
resource.  Edges are lost when a transaction is granted, aborted or timed out
while it holds what others wait for, and a holder from the queue gets no edges
from those behind it.
-/

namespace KlyroDB

namespace WaitForGraph

def Edge (graph : WaitForGraph) (waiting holding : Nat) : Prop :=
  holding ∈ (graph.lookup waiting).getD []

variable {graph : WaitForGraph} {waiting holding : Nat}

theorem Edge.addEdge (edge : graph.Edge waiting holding) (from_ to_ : Nat) :
    (graph.addEdge from_ to_).Edge waiting holding := by
  unfold WaitForGraph.addEdge Edge at *
  split_ifs
  · exact edge
  by_cases same : waiting = from_
  · subst same
    rw [AList.lookup_insert, Option.getD_some]
    exact List.mem_insert_of_mem edge
  · rwa [AList.lookup_insert_ne same]

theorem edge_addEdge (ne : waiting ≠ holding) (graph : WaitForGraph) :
    (graph.addEdge waiting holding).Edge waiting holding := by
  unfold addEdge Edge
  rw [if_neg ne, AList.lookup_insert, Option.getD_some]
  exact List.mem_insert_self

theorem Edge.removeEdge (edge : graph.Edge waiting holding) {to_ : Nat}
    (other : holding ≠ to_) (from_ : Nat) : (graph.removeEdge from_ to_).Edge waiting holding := by
  unfold WaitForGraph.removeEdge
  cases found : graph.lookup from_ with
  | none => exact edge
  | some holders =>
    dsimp only
    by_cases same : waiting = from_
    · subst same
      unfold Edge at edge
      rw [found, Option.getD_some] at edge
      have stays : holding ∈ holders.erase to_ := (List.mem_erase_of_ne other).mpr edge
      have notEmpty : ¬ (holders.erase to_).isEmpty = true := by
        rw [List.isEmpty_iff]
        exact List.ne_nil_of_mem stays
      rw [if_neg notEmpty, Edge, AList.lookup_insert, Option.getD_some]
      exact stays
    · unfold Edge at *
      split_ifs
      · rwa [AList.lookup_erase_ne same]
      · rwa [AList.lookup_insert_ne same]

theorem Edge.removeTransaction (edge : graph.Edge waiting holding) {txn : Nat}
    (notWaiting : waiting ≠ txn) (notHolding : holding ≠ txn) :
    (graph.removeTransaction txn).Edge waiting holding := by
  have outgoing : WaitForGraph.Edge (graph.erase txn) waiting holding := by
    unfold Edge
    rwa [AList.lookup_erase_ne notWaiting]
  have kept (keys : List Nat) (rest : WaitForGraph) (present : rest.Edge waiting holding) :
      (keys.foldl (fun rest waiting =>
        WaitForGraph.removeEdge rest waiting txn) rest).Edge waiting holding := by
    induction keys generalizing rest with
    | nil => exact present
    | cons key keys ih => exact ih (rest.removeEdge key txn) (present.removeEdge notHolding key)
  exact kept _ _ outgoing

end WaitForGraph

namespace LockManager

open WaitForGraph

def waitGraph (manager : LockManager) (call : LockCall) : WaitForGraph :=
  (manager.state call.resource).holders.keys.foldl
    (fun graph holder =>
      if holder ≠ call.txnId then graph.addEdge call.txnId holder else graph)
    manager.waitForGraph

theorem edge_foldl_of_edge {graph : WaitForGraph} {waiting holding : Nat}
    (edge : graph.Edge waiting holding) (txnId : Nat) (holders : List Nat) :
    (holders.foldl (fun graph holder =>
      if holder ≠ txnId then graph.addEdge txnId holder else graph)
        graph).Edge waiting holding := by
  induction holders generalizing graph with
  | nil => exact edge
  | cons holder holders ih =>
    rw [List.foldl_cons]
    split_ifs
    · exact ih (edge.addEdge txnId holder)
    · exact ih edge

variable {txnId : Nat} {manager : LockManager} {state : LockState} {call : LockCall}

theorem edge_foldl_of_mem {holding : Nat} {holders : List Nat}
    (mem : holding ∈ holders) (ne : holding ≠ txnId)
    (graph : WaitForGraph) : (holders.foldl (fun graph holder =>
      if holder ≠ txnId then graph.addEdge txnId holder else graph) graph).Edge txnId holding := by
  induction holders generalizing graph with
  | nil => cases mem
  | cons holder holders ih =>
    rw [List.foldl_cons]
    rcases List.mem_cons.mp mem with rfl | later
    · rw [if_pos ne]
      exact edge_foldl_of_edge (edge_addEdge ne.symm graph) _ _
    · exact ih later _

def AllEdges (manager : LockManager) : Prop :=
  ∀ resource, ∀ request ∈ (manager.state resource).waiters, ∀ holder ∈
    (manager.state resource).holders, holder ≠ request.txnId → manager.waitForGraph.Edge
    request.txnId holder

def NotWaiting (manager : LockManager) (txnId : Nat) : Prop :=
  ∀ resource, ∀ request ∈ (manager.state resource).waiters, request.txnId ≠ txnId

def WaitsOnlyFor (manager : LockManager) (txnId : Nat) (resource : LockResource) : Prop :=
  ∀ other, other.canonical ≠ resource.canonical →
    ∀ request ∈ (manager.state other).waiters, request.txnId ≠ txnId

def NobodyBehind (manager : LockManager) (txnId : Nat) : Prop :=
  ∀ resource, txnId ∈ (manager.state resource).holders →
    ∀ request ∈ (manager.state resource).waiters, request.txnId = txnId

structure EndsQuietly (manager : LockManager) (call : LockCall) : Prop where
  only : manager.WaitsOnlyFor call.txnId call.resource
  nobody : manager.NobodyBehind call.txnId
  alone : (manager.state call.resource).isGrantable call.txnId call.mode =
    true → (manager.state call.resource).waiters.length = 1

/-- The transactions that keep the second one from going on. -/
def BlockedBy (manager : LockManager) (waiting holding : Nat) : Prop :=
  ∃ resource request held, request ∈ (manager.state resource).waiters ∧ request.txnId = waiting ∧
    manager.heldMode resource holding = some held ∧ holding ≠ waiting ∧ isCompatible held
    request.mode = false

/-- The edges of a transaction may be dropped if it waits for nothing any
more and holds nothing that is still waited for. -/
theorem AllEdges.drop {before after : LockManager} (edges : before.AllEdges)
    (graph : after.waitForGraph = before.waitForGraph.removeTransaction txnId)
    (waiters : ∀ resource, ∀ request ∈ (after.state resource).waiters,
      request ∈ (before.state resource).waiters ∧ request.txnId ≠ txnId)
    (holders : ∀ resource, ∀ request ∈ (after.state resource).waiters,
      ∀ holder ∈ (after.state resource).holders,
        holder ∈ (before.state resource).holders ∧ holder ≠ txnId) : after.AllEdges := by
  intro resource request waits holder holds ne
  obtain ⟨waited, notWaiting⟩ := waiters resource request waits
  obtain ⟨held, notHolding⟩ := holders resource request waits holder holds
  rw [graph]
  exact (edges resource request waited holder held ne).removeTransaction notWaiting notHolding

/-- The state of one resource is replaced by one with no further waiters or
holders to be waited for. -/
theorem AllEdges.setState (edges : manager.AllEdges) {resource : LockResource}
    (waiters : ∀ request ∈ state.waiters, request ∈ (manager.state resource).waiters)
    (holders : ∀ request ∈ state.waiters, ∀ holder ∈ state.holders,
      holder ∈ (manager.state resource).holders) : (manager.setState resource state).AllEdges := by
  intro other request waits holder holds ne
  rw [state_setState] at waits holds
  split_ifs at waits holds with same
  · have present := edges resource request (waiters request waits) holder
      (holders request waits holder holds) ne
    exact present
  · exact edges other request waits holder holds ne

theorem AllEdges.unlock (edges : manager.AllEdges) (txnId : Nat)
    (resource : LockResource) : (manager.unlock txnId resource).1.AllEdges := by
  unfold LockManager.unlock
  cases found : (manager.shards (manager.getShard resource)).lookup resource.canonical with
  | none => exact edges
  | some state =>
    have current : manager.state resource = state := by simp [LockManager.state, found]
    dsimp only
    split_ifs with notHolder empty
    · exact edges
    · intro other request waits
      have states := state_eraseState manager resource other
      rw [states] at waits
      split_ifs at waits with same
      · cases waits
      · intro holder holds ne
        rw [states, if_neg same] at holds
        exact edges other request waits holder holds ne
    refine edges.setState ?_ ?_
    · rw [current]
      exact fun request waits => waits
    · rw [current]
      exact fun _ _ holder holds => AList.mem_erase.mp holds |>.2

theorem NobodyBehind.ne_holder (nobody : manager.NobodyBehind txnId)
    {resource : LockResource} {request : LockRequest}
    (waits : request ∈ (manager.state resource).waiters)
    (other : request.txnId ≠ txnId) {holder : Nat}
    (holds : holder ∈ (manager.state resource).holders) : holder ≠ txnId := by
  rintro rfl
  exact other (nobody resource holds request waits)

section

variable (edges : manager.AllEdges)

include edges

theorem AllEdges.settle (quiet : manager.EndsQuietly call)
    (waiters : ∀ request ∈ state.waiters, request ∈ (manager.state call.resource).waiters ∧
      request.txnId ≠ call.txnId)
    (holders : ∀ request ∈ state.waiters, ∀ holder ∈ state.holders,
      holder ∈ (manager.state call.resource).holders) : (manager.settle call state).AllEdges := by
  have states (resource : LockResource) : (manager.settle call state).state resource = if
      resource.canonical = call.resource.canonical then state else manager.state resource :=
      state_setState ..
  have remaining : ∀ resource, ∀ request ∈ ((manager.settle call state).state resource).waiters,
      request ∈ (manager.state resource).waiters ∧ request.txnId ≠ call.txnId := by
    intro resource request waits
    rw [states] at waits
    split_ifs at waits with same
    · rw [state_eq_of_canonical_eq manager same]
      exact waiters request waits
    · exact ⟨waits, quiet.only resource same request waits⟩
  refine edges.drop rfl remaining ?_
  intro resource request waits holder holds
  obtain ⟨waited, other⟩ := remaining resource request waits
  have held : holder ∈ (manager.state resource).holders := by
    rw [states] at waits holds
    split_ifs at waits holds with same
    · rw [state_eq_of_canonical_eq manager same]
      exact holders request waits holder holds
    · exact holds
  exact ⟨held, quiet.nobody.ne_holder waited other held⟩

theorem AllEdges.removeRequests (quiet : manager.EndsQuietly call) :
    (manager.settle call ((manager.state call.resource).removeRequests call.txnId)).AllEdges := by
  refine edges.settle quiet (fun request waits => ?_) fun _ _ _ holds => holds
  have kept := List.mem_filter.mp waits
  exact ⟨kept.1, by simpa using kept.2⟩

theorem AllEdges.resume (quiet : (manager.state call.resource).isAborted call.txnId = true ∨
      (manager.state call.resource).isGrantable call.txnId call.mode = true →
        manager.EndsQuietly call) : (manager.resume call).1.AllEdges := by
  unfold LockManager.resume
  dsimp only
  split_ifs with aborted grantable
  · exact edges.removeRequests (quiet (.inl aborted))
  · have empty : (manager.state call.resource).waiters.tail = [] := by
      rw [← List.length_eq_zero_iff, List.length_tail, (quiet (.inr grantable)).alone grantable]
    apply edges.settle (quiet (.inr grantable)) <;> simp [LockState.grant, empty]
  · exact edges

theorem AllEdges.expire (quiet : manager.EndsQuietly call) : (manager.expire call).1.AllEdges := by
  unfold LockManager.expire
  split
  · exact edges.removeRequests quiet
  · exact edges.resume fun _ => quiet

theorem AllEdges.queued (sameHolders : state.holders = (manager.state call.resource).holders)
    (queue : ∀ request ∈ state.waiters, request ∈ (manager.state call.resource).waiters ∨
        request.txnId = call.txnId) :
    AllEdges { manager.setState call.resource state with
      waitForGraph := manager.waitGraph call } := by
  intro resource request waits holder holds ne
  change request ∈ ((manager.setState call.resource state).state resource).waiters at waits
  change holder ∈ ((manager.setState call.resource state).state resource).holders at holds
  rw [state_setState] at waits holds
  have old {other : LockResource} (waited : request ∈ (manager.state other).waiters)
      (held : holder ∈ (manager.state other).holders) : (manager.waitGraph call).Edge request.txnId
      holder := edge_foldl_of_edge (edges other request waited holder held ne) _ _
  split_ifs at waits holds with same
  · rw [sameHolders] at holds
    rcases queue request waits with waited | own
    · exact old waited holds
    · rw [own] at ne ⊢
      exact edge_foldl_of_mem (AList.mem_keys.mp holds) ne _
  · exact old waits holds

end

/-- How a state looks that a request of a transaction without other requests
has joined, without a chance to be granted at once. -/
structure Joined (before after : LockState) (call : LockCall) : Prop where
  holders : after.holders = before.holders
  queue : ∀ request ∈ after.waiters, request ∈ before.waiters ∨ request.txnId = call.txnId
  withdrawn : (after.waiters.eraseP fun request =>
    request.txnId == call.txnId) = before.waiters
  notAborted : after.isAborted call.txnId = false
  notGrantable : after.isGrantable call.txnId call.mode = false

theorem joined_front {held : LockMode} (holds : state.holders.lookup call.txnId = some held)
    (conflict : isCompatible call.mode held = false) : Joined state { state with
      waiters := ⟨call.txnId, call.mode, false⟩ :: state.waiters } call where
  holders := rfl
  queue := by
    intro request mem
    rcases List.mem_cons.mp mem with rfl | old
    · exact .inr rfl
    · exact .inl old
  withdrawn := by simp
  notAborted := by simp [LockState.isAborted]
  notGrantable := by
    have refused : state.canGrant call.mode = false := by
      by_contra granted
      rw [Bool.not_eq_false] at granted
      have compatible := LockState.isCompatible_of_canGrant granted holds
      rw [isCompatible_comm, conflict] at compatible
      cases compatible
    have same : LockState.canGrant { state with
        waiters := ⟨call.txnId, call.mode, false⟩ :: state.waiters }
          call.mode = state.canGrant call.mode := rfl
    simp [LockState.isGrantable, same, refused]

theorem joined_back (fresh : ∀ request ∈ state.waiters, request.txnId ≠ call.txnId)
    (refused : (state.waiters.isEmpty && state.canGrant call.mode) = false) :
    Joined state { state with
      waiters := state.waiters ++ [⟨call.txnId, call.mode, false⟩] } call where
  holders := rfl
  queue := by
    intro request mem
    rcases List.mem_append.mp mem with old | new
    · exact .inl old
    · rw [List.mem_singleton.mp new]
      exact .inr rfl
  withdrawn := by
    rw [List.eraseP_append_right]
    · simp
    · intro request mem
      simpa using fresh request mem
  notAborted := by
    have skipped : state.waiters.find? (fun request => request.txnId == call.txnId) = none := by
      rw [List.find?_eq_none]
      intro request mem
      simpa using fresh request mem
    simp [LockState.isAborted, List.find?_append, skipped]
  notGrantable := by
    unfold LockState.isGrantable
    cases queue : state.waiters with
    | nil =>
      rw [queue] at refused
      exact Bool.and_eq_false_iff.mpr (.inr refused)
    | cons front rest =>
      have other := fresh front (by rw [queue]; exact List.mem_cons_self)
      simp [other]

section

variable (edges : manager.AllEdges) {enumeration : Enumeration}
  (notWaiting : manager.NotWaiting call.txnId)
  (victim : (manager.waitGraph call).detectCycle enumeration = some call.txnId →
    manager.NobodyBehind call.txnId)

include edges notWaiting victim

theorem AllEdges.enqueue (joined : Joined (manager.state call.resource) state call) :
    (manager.enqueue enumeration call state).1.AllEdges := by
  have graph : state.holders.keys.foldl (fun graph holder =>
        if holder ≠ call.txnId then graph.addEdge call.txnId holder
        else graph) manager.waitForGraph = manager.waitGraph call := by
    rw [joined.holders]
    rfl
  have queued := edges.queued joined.holders joined.queue
  unfold LockManager.enqueue
  simp only [graph]
  split_ifs with isVictim
  · have nobody := victim isVictim
    have states (resource : LockResource) : (({ manager.setState call.resource state with
            waitForGraph := manager.waitGraph call } : LockManager).settle
          call { state with waiters := state.waiters.eraseP fun request =>
            request.txnId == call.txnId }).state resource =
          manager.state resource := by
      have withdrawn : ({ state with
          waiters := state.waiters.eraseP fun request =>
            request.txnId == call.txnId } : LockState) =
            manager.state call.resource := by rw [joined.withdrawn, joined.holders]
      rw [withdrawn]
      change ((manager.setState call.resource state).setState call.resource
        (manager.state call.resource)).state resource = _
      rw [state_setState]
      split_ifs with same
      · exact (state_eq_of_canonical_eq manager same).symm
      · rw [state_setState, if_neg same]
    intro resource request waits holder holds ne
    rw [states] at waits holds
    have edge := edges resource request waits holder holds ne
    refine (edge_foldl_of_edge edge _ _).removeTransaction ?_ ?_
    · exact notWaiting resource request waits
    · exact nobody.ne_holder waits (notWaiting resource request waits) holds
  have here : ({ manager.setState call.resource state with
      waitForGraph := manager.waitGraph call } : LockManager).state call.resource = state := by
    change (manager.setState call.resource state).state call.resource = _
    rw [state_setState, if_pos rfl]
  refine queued.resume ?_
  rw [here, joined.notAborted, joined.notGrantable]
  rintro (impossible | impossible) <;> cases impossible

theorem AllEdges.lock : (manager.lock enumeration call).1.AllEdges := by
  unfold LockManager.lock
  dsimp only
  cases holds : (manager.state call.resource).holders.lookup call.txnId with
  | some held =>
    dsimp only
    split_ifs with keeps upgradable
    · exact edges
    · refine edges.setState (fun request waits => waits) ?_
      intro _ _ holder mem
      rcases AList.mem_insert _ |>.mp mem with rfl | old
      · exact AList.lookup_isSome.mp (by rw [holds]; rfl)
      · exact old
    · refine edges.enqueue notWaiting victim (joined_front holds ?_)
      rw [not_or] at keeps
      exact Bool.eq_false_iff.mpr keeps.2
  | none =>
    dsimp only
    split_ifs with grantable
    · have empty : (manager.state call.resource).waiters = [] :=
        List.isEmpty_iff.mp (Bool.and_eq_true_iff.mp grantable).1
      refine edges.setState (fun request waits => waits) ?_
      intro request waits
      have waited : request ∈ (manager.state call.resource).waiters := waits
      rw [empty] at waited
      cases waited
    · exact edges.enqueue notWaiting victim (joined_back
        (notWaiting call.resource) (Bool.eq_false_iff.mpr grantable))

end

end LockManager

namespace LockSystem

open LockManager

/-- One transaction makes one call at a time, and a section that drops the
edges of a transaction leaves no blocked request behind. -/
def Quiet (system : LockSystem) : LockEvent → Prop
  | .lock call enumeration =>
      system.manager.NotWaiting call.txnId ∧
        ((system.manager.waitGraph call).detectCycle enumeration = some call.txnId →
          system.manager.NobodyBehind call.txnId)
  | .wake index => ∀ call, system.waiting[index]? = some call →
      ((system.manager.state call.resource).isAborted call.txnId = true ∨
        (system.manager.state call.resource).isGrantable call.txnId call.mode = true) →
      system.manager.EndsQuietly call
  | .expire index => ∀ call, system.waiting[index]? = some call →
      call.timed = true → system.manager.EndsQuietly call
  | .unlock _ _ => True
  | .removeTransaction txnId => system.manager.NotWaiting txnId ∧ system.manager.NobodyBehind txnId

theorem allEdges_step {system : LockSystem} (edges : system.manager.AllEdges) (event : LockEvent)
    (quiet : system.Quiet event) : (system.step event).1.manager.AllEdges := by
  cases event with
  | lock call enumeration =>
    have kept := edges.lock quiet.1 quiet.2
    rw [step]
    generalize system.manager.lock enumeration call = result at kept
    obtain ⟨manager, outcome⟩ := result
    cases outcome <;> exact kept
  | wake index =>
    rw [step]
    cases found : system.waiting[index]? with
    | none => exact edges
    | some call =>
      rw [manager_continueWith]
      exact edges.resume (quiet call found)
  | expire index =>
    rw [step]
    cases found : system.waiting[index]? with
    | none => exact edges
    | some call =>
      dsimp only
      split_ifs with timed
      · rw [manager_continueWith]
        exact edges.expire (quiet call found timed)
      · exact edges
  | unlock txnId resource => exact edges.unlock txnId resource
  | removeTransaction txnId =>
    refine edges.drop rfl ?_ ?_
    · intro resource request waits
      exact ⟨waits, quiet.1 resource request waits⟩
    · intro resource request waits holder holds
      exact ⟨holds, quiet.2.ne_holder waits (quiet.1 resource request waits) holds⟩

/-- In every run of quiet sections each blocked request has its edges, and
each cycle of blocked transactions is a cycle of the graph. -/
theorem blocked_edges (numShards : Nat) (events : List LockEvent)
    (quiet : GuardedRuns.Along (fun system event =>
      (LockSystem.step system event).1) Quiet (initial numShards) events) :
    (∀ waiting holding, (run numShards events).manager.BlockedBy waiting holding →
        (run numShards events).manager.waitForGraph.Edge waiting holding) ∧
    ∀ txnId, Relation.TransGen (run numShards events).manager.BlockedBy txnId txnId →
        Relation.TransGen (run numShards events).manager.waitForGraph.Edge txnId txnId := by
  have keeps : ∀ (system : LockSystem) (event : LockEvent), system.manager.AllEdges → system.Quiet
      event → (system.step event).1.manager.AllEdges := fun system event kept guarded =>
      allEdges_step kept event guarded
  have start : (initial numShards).manager.AllEdges := by
    intro resource request waits
    cases waits
  have edges : (run numShards events).manager.AllEdges := quiet.run_invariant keeps start
  have present : ∀ waiting holding, (run numShards events).manager.BlockedBy waiting holding →
      (run numShards events).manager.waitForGraph.Edge waiting holding := by
    rintro waiting holding ⟨resource, request, held, waits, rfl, holds, different, _⟩
    refine edges resource request waits holding ?_ different
    refine AList.lookup_isSome.mp ?_
    change ((run numShards events).manager.heldMode resource holding).isSome = true
    rw [holds]
    rfl
  exact ⟨present, fun txnId cycle =>
    Relation.TransGen.mono present txnId txnId cycle⟩

/-- A second writer waits for the first one. -/
theorem blocked_edges_two_writers :
    (run 64 [lockTable 1 .exclusive, lockTable 2 .exclusive]).manager.waitForGraph.Edge 2 1 := by
  refine (blocked_edges 64
    [lockTable 1 .exclusive, lockTable 2 .exclusive]
    ⟨⟨?_, ?_⟩, ⟨?_, ?_⟩, trivial⟩).1 2 1 ?_
  · intro resource request waits
    cases waits
  · intro victim
    exact absurd victim (by decide +kernel)
  · intro resource request waits
    change request ∈ (((initial 64).manager.setState { type := .table }
      (LockState.grant {} 1 .exclusive)).state resource).waiters at waits
    rw [state_setState] at waits
    split_ifs at waits
    · cases waits
    · cases waits
  · intro victim
    exact absurd victim (by decide +kernel)
  · exact ⟨{ type := .table }, ⟨2, .exclusive, false⟩, .exclusive,
      by decide +kernel, rfl, by decide +kernel, by decide, rfl⟩

/-- The second of three writers is granted the lock; the third one, which
waits behind it, has no edge to it. -/
theorem blocked_without_edge :
    (run 64 [lockTable 1 .exclusive, lockTable 2 .exclusive, lockTable 3 .exclusive,
        .unlock 1 { type := .table }, .wake 0]).manager.BlockedBy 3 2 ∧
      ¬ (run 64 [lockTable 1 .exclusive, lockTable 2 .exclusive, lockTable 3 .exclusive,
        .unlock 1 { type := .table }, .wake 0]).manager.waitForGraph.Edge 3 2 := by
  refine ⟨⟨{ type := .table }, ⟨3, .exclusive, false⟩, .exclusive,
    by decide +kernel, rfl, by decide +kernel, by decide, rfl⟩, ?_⟩
  unfold WaitForGraph.Edge
  decide +kernel

end LockSystem

end KlyroDB
