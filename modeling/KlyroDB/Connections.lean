import KlyroDB.TransactionManager
import KlyroDB.Values

/-!
# Connections and their pool

`runtime/`: sessions with their cancellation tokens, the manager that creates
and closes connections, and the pool that leases them.  Connections are shared
objects and referred to by their place in the list of all.  The destructor of a
lease has two steps: it resets the connection without a lock and then gives it
back under the lock of the pool.
-/

namespace KlyroDB

structure TransactionContext where
  transaction : Nat
  snapshot : Snapshot
  deriving DecidableEq

structure SessionContext where
  currentTransaction : Option TransactionContext := none
  defaultIsolationLevel : IsolationLevel := .readCommitted
  autocommit : Bool := true
  readOnly : Bool := false
  queryTimeout : Int := 0
  memoryLimitBytes : Nat := 256 * 1024 * 1024
  currentSchema : List UInt8 := ascii "public"
  sessionVars : AList (fun _ : List UInt8 => List UInt8) := ∅

namespace SessionContext

def reset (session : SessionContext) : SessionContext :=
  { session with
    currentTransaction := none
    autocommit := true
    readOnly := false
    defaultIsolationLevel := .readCommitted
    queryTimeout := 0
    currentSchema := ascii "public"
    sessionVars := ∅ }

end SessionContext

structure CancellationToken where
  cancelled : Bool := false
  deadline : Option Int := none
  deriving DecidableEq

namespace CancellationToken

def cancel (token : CancellationToken) : CancellationToken :=
  { token with cancelled := true }

def setDeadline (token : CancellationToken) (deadline : Int) : CancellationToken :=
  { token with deadline := some deadline }

def reset (_ : CancellationToken) : CancellationToken :=
  { cancelled := false, deadline := none }

end CancellationToken

inductive ConnectionState
  | opening
  | open
  | busy
  | idle
  | closing
  | closed
  | failed
  deriving DecidableEq, Repr

structure Connection where
  id : Nat
  state : ConnectionState := .open
  session : SessionContext := {}
  cancelToken : CancellationToken := {}

namespace Connection

def setState (connection : Connection) (state : ConnectionState) : Connection :=
  { connection with state := state }

def cancel (connection : Connection) : Connection :=
  { connection with cancelToken := connection.cancelToken.cancel }

def resetForPool (connection : Connection) : Connection :=
  { connection with
    session := connection.session.reset
    cancelToken := connection.cancelToken.reset
    state := .open }

end Connection

structure ConnectionManager where
  nextId : Nat := 1
  connections : AList (fun _ : Nat => Nat) := ∅
  isShutdown : Bool := false

/-- `ConnectionPool`; the front of the queue of idle connections is the head
of the list. -/
structure ConnectionPool where
  maxConnections : Nat
  idle : List Nat := []
  activeCount : Nat := 0
  isShutdown : Bool := false

/-- An outstanding `ConnectionLease`, whose destructor may already have reset
the connection. -/
structure ConnectionLease where
  connection : Nat
  isReset : Bool := false
  deriving DecidableEq

/-- The pool with its manager, all connections ever created and the leases
that have not been given back. -/
structure PooledRuntime where
  manager : ConnectionManager := {}
  pool : ConnectionPool
  objects : List Connection := []
  leases : List ConnectionLease := []

namespace PooledRuntime

def start (maxConnections : Nat) : PooledRuntime where
  pool := { maxConnections := maxConnections }

def modifyObject (runtime : PooledRuntime) (object : Nat)
    (change : Connection → Connection) : PooledRuntime :=
  { runtime with objects := runtime.objects.modify object change }

/-- `ConnectionManager::create_connection`, with the new object. -/
def createConnection (runtime : PooledRuntime) : PooledRuntime × Option Nat :=
  if runtime.manager.isShutdown then (runtime, none)
  else
    let id := runtime.manager.nextId % 2 ^ 32
    let object := runtime.objects.length
    ({ runtime with
        manager :=
          { runtime.manager with
            nextId := runtime.manager.nextId + 1
            connections := runtime.manager.connections.insert id object }
        objects := runtime.objects ++ [{ id := id }] },
      some object)

def closeConnection (runtime : PooledRuntime) (id : Nat) : PooledRuntime :=
  match runtime.manager.connections.lookup id with
  | none => runtime
  | some object =>
      { runtime.modifyObject object (·.setState .closed) with
        manager :=
          { runtime.manager with
            connections := runtime.manager.connections.erase id } }

def closeObject (runtime : PooledRuntime) (object : Nat) : PooledRuntime :=
  match runtime.objects[object]? with
  | none => runtime
  | some connection => runtime.closeConnection connection.id

def shutdownManager (runtime : PooledRuntime) : PooledRuntime :=
  let objects := runtime.manager.connections.entries.map (·.2)
  let closed := objects.foldl
    (fun (runtime : PooledRuntime) object => runtime.modifyObject object
      fun connection => (connection.setState .closed).cancel)
    runtime
  { closed with
    manager :=
      { runtime.manager with connections := ∅, isShutdown := true } }

/-- The condition that `ConnectionPool::acquire` waits for. -/
def canProceed (pool : ConnectionPool) : Bool :=
  pool.isShutdown || !pool.idle.isEmpty || pool.activeCount < pool.maxConnections

def lease (runtime : PooledRuntime) (object : Nat) : PooledRuntime :=
  { runtime.modifyObject object (·.setState .busy) with
    pool := { runtime.pool with activeCount := runtime.pool.activeCount + 1 }
    leases := { connection := object } :: runtime.leases }

/-- `ConnectionPool::acquire`, with the connection that is leased; a call that
has to wait, or whose time is over, changes nothing. -/
def acquire (runtime : PooledRuntime) : PooledRuntime × Option Nat :=
  if !canProceed runtime.pool then (runtime, none)
  else if runtime.pool.isShutdown then (runtime, none)
  else
    match runtime.pool.idle with
    | object :: rest =>
        let taken := { runtime with pool := { runtime.pool with idle := rest } }
        (taken.lease object, some object)
    | [] =>
        match runtime.createConnection with
        | (created, some object) => (created.lease object, some object)
        | (same, none) => (same, none)

/-- The first part of the destructor of a lease. -/
def resetLease (runtime : PooledRuntime) (index : Nat) : PooledRuntime :=
  match runtime.leases[index]? with
  | some ⟨object, false⟩ =>
      { runtime.modifyObject object Connection.resetForPool with
        leases := runtime.leases.set index ⟨object, true⟩ }
  | _ => runtime

def release (runtime : PooledRuntime) (object : Nat) : PooledRuntime :=
  if runtime.pool.isShutdown then runtime.closeObject object
  else
    { runtime.modifyObject object (·.setState .idle) with
      pool :=
        { runtime.pool with
          idle := runtime.pool.idle ++ [object]
          activeCount := runtime.pool.activeCount - 1 } }

/-- The second part of the destructor of a lease. -/
def releaseLease (runtime : PooledRuntime) (index : Nat) : PooledRuntime :=
  match runtime.leases[index]? with
  | some ⟨object, true⟩ =>
      { runtime.release object with leases := runtime.leases.eraseIdx index }
  | _ => runtime

def shutdownPool (runtime : PooledRuntime) : PooledRuntime :=
  let closed := runtime.pool.idle.foldl closeObject
    { runtime with pool := { runtime.pool with isShutdown := true } }
  { closed with pool := { closed.pool with idle := [] } }

end PooledRuntime

inductive LeaseEvent
  | acquire
  | resetLease (index : Nat)
  | releaseLease (index : Nat)
  | shutdownPool
  | shutdownManager
  deriving DecidableEq, Repr

namespace PooledRuntime

def step (runtime : PooledRuntime) : LeaseEvent → PooledRuntime
  | .acquire => runtime.acquire.1
  | .resetLease index => runtime.resetLease index
  | .releaseLease index => runtime.releaseLease index
  | .shutdownPool => runtime.shutdownPool
  | .shutdownManager => runtime.shutdownManager

end PooledRuntime

end KlyroDB
