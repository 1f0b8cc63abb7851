import KlyroDB.LockResources
import KlyroDB.WaitForGraph

/-!
# The lock manager

`concurrency/lock_manager.cpp`, cut into the sections under one shard mutex: the
part of `lock_with_timeout` up to its wait, one evaluation of its wait
predicate, and `unlock`.
-/

namespace KlyroDB

structure LockRequest where
  txnId : Nat
  mode : LockMode
  aborted : Bool := false
  deriving DecidableEq, Repr

/-- `LockState` without its condition variable. -/
structure LockState where
  holders : AList fun _ : Nat => LockMode := ∅
  waiters : List LockRequest := []

abbrev LockTable := AList fun _ : LockResource => LockState

structure LockManager where
  numShards : Nat := 64
  shards : Nat → LockTable := fun _ => ∅
  waitForGraph : WaitForGraph := ∅

/-- The arguments of one `lock_with_timeout` call; `lock` is untimed. -/
structure LockCall where
  txnId : Nat
  resource : LockResource
  mode : LockMode
  timed : Bool := false
  deriving DecidableEq, Repr

inductive LockOutcome
  | returned (status : Status)
  | waiting
  deriving DecidableEq, Repr

namespace LockState

def canGrant (state : LockState) (requestedMode : LockMode) : Bool :=
  state.holders.entries.all fun holder =>
    isCompatible holder.2 requestedMode

def canUpgrade (state : LockState) (txnId : Nat) (mode : LockMode) : Bool :=
  state.holders.entries.all fun holder =>
    holder.1 == txnId || isCompatible holder.2 mode

def isAborted (state : LockState) (txnId : Nat) : Bool :=
  match state.waiters.find? (fun request => request.txnId == txnId) with
  | some request => request.aborted
  | none => false

def isGrantable (state : LockState) (txnId : Nat) (mode : LockMode) : Bool :=
  match state.waiters.head? with
  | some front => front.txnId == txnId && state.canGrant mode
  | none => false

def grant (state : LockState) (txnId : Nat) (mode : LockMode) : LockState :=
  { state with holders := state.holders.insert txnId mode }

def removeRequests (state : LockState) (txnId : Nat) : LockState :=
  { state with
    waiters := state.waiters.filter fun request => request.txnId != txnId }

end LockState

namespace LockManager

def getShard (manager : LockManager) (resource : LockResource) : Nat :=
  resource.hash.toNat % manager.numShards

/-- The entry of a resource; `shard.table[resource]` makes an empty one. -/
def state (manager : LockManager) (resource : LockResource) : LockState :=
  ((manager.shards (manager.getShard resource)).lookup resource.canonical).getD {}

def setState (manager : LockManager) (resource : LockResource) (state : LockState) : LockManager :=
  let index := manager.getShard resource
  { manager with
    shards := Function.update manager.shards index
      ((manager.shards index).insert resource.canonical state) }

def eraseState (manager : LockManager) (resource : LockResource) : LockManager :=
  let index := manager.getShard resource
  { manager with
    shards := Function.update manager.shards index
      ((manager.shards index).erase resource.canonical) }

def heldMode (manager : LockManager) (resource : LockResource) (txnId : Nat) : Option LockMode :=
  (manager.state resource).holders.lookup txnId

/-- Stores a state and drops every edge of the transaction. -/
def settle (manager : LockManager) (call : LockCall) (state : LockState) : LockManager :=
  { manager.setState call.resource state with
    waitForGraph := manager.waitForGraph.removeTransaction call.txnId }

/-- One evaluation of the wait predicate and, when it is true, the rest of
`lock_with_timeout`. -/
def resume (manager : LockManager) (call : LockCall) : LockManager × LockOutcome :=
  let state := manager.state call.resource
  if state.isAborted call.txnId then
    (manager.settle call (state.removeRequests call.txnId), .returned .transactionAborted)
  else if state.isGrantable call.txnId call.mode then
    let granted := state.grant call.txnId call.mode
    (manager.settle call { granted with waiters := granted.waiters.tail }, .returned .ok)
  else (manager, .waiting)

def expire (manager : LockManager) (call : LockCall) : LockManager × LockOutcome :=
  match manager.resume call with
  | (_, .waiting) =>
      let state := manager.state call.resource
      (manager.settle call (state.removeRequests call.txnId), .returned .timeout)
  | completed => completed

/-- From "We must wait" to the first evaluation of the predicate, with the
request already in the queue of `state`. -/
def enqueue (manager : LockManager) (enumeration : Enumeration)
    (call : LockCall) (state : LockState) : LockManager × LockOutcome :=
  let graph := state.holders.keys.foldl
    (fun graph holder =>
      if holder ≠ call.txnId then graph.addEdge call.txnId holder else graph)
    manager.waitForGraph
  let queued : LockManager :=
    { manager.setState call.resource state with waitForGraph := graph }
  if graph.detectCycle enumeration = some call.txnId then
    (queued.settle call { state with
        waiters := state.waiters.eraseP fun request =>
          request.txnId == call.txnId },
      .returned .transactionAborted)
  else queued.resume call

/-- `lock_with_timeout` up to the point where it returns or blocks. -/
def lock (manager : LockManager) (enumeration : Enumeration)
    (call : LockCall) : LockManager × LockOutcome :=
  let state := manager.state call.resource
  match state.holders.lookup call.txnId with
  | some held =>
      if held = call.mode ∨ isCompatible call.mode held = true then
        (manager, .returned .ok)
      else if state.canUpgrade call.txnId call.mode then
        (manager.setState call.resource (state.grant call.txnId call.mode), .returned .ok)
      else
        manager.enqueue enumeration call { state with
          waiters := ⟨call.txnId, call.mode, false⟩ :: state.waiters }
  | none =>
      if state.waiters.isEmpty && state.canGrant call.mode then
        (manager.setState call.resource (state.grant call.txnId call.mode), .returned .ok)
      else
        manager.enqueue enumeration call { state with
          waiters := state.waiters ++ [⟨call.txnId, call.mode, false⟩] }

def unlock (manager : LockManager) (txnId : Nat) (resource : LockResource) : LockManager × Status :=
  match (manager.shards (manager.getShard resource)).lookup resource.canonical with
  | none => (manager, .notFound)
  | some state =>
      if state.holders.lookup txnId = none then (manager, .invalidArgument)
      else
        let rest := { state with holders := state.holders.erase txnId }
        if rest.holders.keys.isEmpty && rest.waiters.isEmpty then
          (manager.eraseState resource, .ok)
        else (manager.setState resource rest, .ok)

def removeTransaction (manager : LockManager) (txnId : Nat) : LockManager :=
  { manager with
    waitForGraph := manager.waitForGraph.removeTransaction txnId }

def releaseAll (manager : LockManager) (txnId : Nat)
    (resources : List LockResource) : LockManager :=
  (resources.foldl (fun rest resource => (rest.unlock txnId resource).1)
    manager).removeTransaction txnId

end LockManager

/-- A section of some call.  Waiting calls are named by their position; a
condition variable may wake its waiters at any time. -/
inductive LockEvent
  | lock (call : LockCall) (enumeration : Enumeration)
  | wake (index : Nat)
  | expire (index : Nat)
  | unlock (txnId : Nat) (resource : LockResource)
  | removeTransaction (txnId : Nat)

structure LockSystem where
  manager : LockManager
  waiting : List LockCall := []

namespace LockSystem

def continueWith (system : LockSystem) (index : Nat) (call : LockCall)
    (result : LockManager × LockOutcome) : LockSystem × Option (LockCall × Status) :=
  match result with
  | (manager, .waiting) => ({ system with manager := manager }, none)
  | (manager, .returned status) =>
      ({ manager := manager, waiting := system.waiting.eraseIdx index }, some (call, status))

/-- One section, with the lock call that returned in it, if any. -/
def step (system : LockSystem) : LockEvent → LockSystem × Option (LockCall × Status)
  | .lock call enumeration =>
      match system.manager.lock enumeration call with
      | (manager, .waiting) =>
          ({ manager := manager, waiting := system.waiting ++ [call] }, none)
      | (manager, .returned status) =>
          ({ system with manager := manager }, some (call, status))
  | .wake index =>
      match system.waiting[index]? with
      | none => (system, none)
      | some call => system.continueWith index call (system.manager.resume call)
  | .expire index =>
      match system.waiting[index]? with
      | none => (system, none)
      | some call =>
          if call.timed then
            system.continueWith index call (system.manager.expire call)
          else (system, none)
  | .unlock txnId resource =>
      ({ system with manager := (system.manager.unlock txnId resource).1 }, none)
  | .removeTransaction txnId =>
      ({ system with manager := system.manager.removeTransaction txnId }, none)

def initial (numShards : Nat) : LockSystem where
  manager := { numShards := numShards }

def run (numShards : Nat) (events : List LockEvent) : LockSystem :=
  events.foldl (fun system event => (system.step event).1) (initial numShards)

/-- An untimed request for one table. -/
def lockTable (txnId : Nat) (mode : LockMode) : LockEvent :=
  .lock ⟨txnId, { type := .table }, mode, false⟩ .stored

end LockSystem

end KlyroDB
