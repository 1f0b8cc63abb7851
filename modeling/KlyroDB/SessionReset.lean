import KlyroDB.PoolAccounting

/-!
# What the next lessee sees

When a lease ends the session is reset field by field, except for the memory
limit.
-/

namespace KlyroDB

/-- What a lessee can do to its connection: the session is a mutable
reference, so any session may be assigned to it. -/
inductive LesseeAction
  | assignSession (session : SessionContext)
  | cancel
  | setDeadline (deadline : Int)
  | resetToken
  | setState (state : ConnectionState)
  | resetForPool

namespace Connection

def perform (connection : Connection) : LesseeAction → Connection
  | .assignSession session => { connection with session := session }
  | .cancel => connection.cancel
  | .setDeadline deadline =>
      { connection with
        cancelToken := connection.cancelToken.setDeadline deadline }
  | .resetToken =>
      { connection with cancelToken := connection.cancelToken.reset }
  | .setState state => connection.setState state
  | .resetForPool => connection.resetForPool

def performAll (connection : Connection) (actions : List LesseeAction) : Connection :=
  actions.foldl perform connection

def observed (connection : Connection) : SessionContext × CancellationToken :=
  (connection.session, connection.cancelToken)

/-- The fields that the reset forgets. -/
theorem observed_resetForPool_iff (connection : Connection) :
    connection.resetForPool.observed = ({}, {}) ↔
      connection.session.memoryLimitBytes = 256 * 1024 * 1024 := by
  constructor
  · intro fresh
    exact congrArg (fun seen => seen.1.memoryLimitBytes) fresh
  · intro default_limit
    simp [observed, resetForPool, SessionContext.reset, CancellationToken.reset, default_limit]

end Connection

/-- Events of the pool and of its lessees. -/
inductive SessionEvent
  | pool (event : LeaseEvent)
  | act (index : Nat) (action : LesseeAction)

namespace PooledRuntime

def act (runtime : PooledRuntime) (index : Nat) (action : LesseeAction) : PooledRuntime :=
  match runtime.leases[index]? with
  | some ⟨object, false⟩ => runtime.modifyObject object (·.perform action)
  | _ => runtime

def use (runtime : PooledRuntime) : SessionEvent → PooledRuntime
  | .pool event => runtime.step event
  | .act index action => runtime.act index action

def observedAt (runtime : PooledRuntime) (object : Nat) :
    Option (SessionContext × CancellationToken) :=
  runtime.objects[object]?.map (·.observed)

/-- A lessee uses its connection, and its lease ends. -/
def endLease (runtime : PooledRuntime) (index : Nat)
    (actions : List LesseeAction) : PooledRuntime :=
  ((actions.foldl (fun runtime action => runtime.act index action)
    runtime).resetLease index).releaseLease index

section Observations

variable {runtime : PooledRuntime} {object : Nat}

theorem observedAt_modifyObject (place : Nat) {change : Connection → Connection}
    (unseen : ∀ connection, (change connection).observed = connection.observed) :
    (runtime.modifyObject place change).observedAt object = runtime.observedAt object := by
  rw [observedAt, modifyObject, List.getElem?_modify, Option.map_eq_map, Option.map_map, observedAt]
  congr 1
  funext connection
  by_cases here : place = object <;> simp [here, unseen]

theorem observedAt_modifyObject_of_ne {place : Nat} (other : place ≠ object)
    (change : Connection → Connection) :
    (runtime.modifyObject place change).observedAt object = runtime.observedAt object := by
  simp [observedAt, modifyObject, other]

theorem observedAt_closeObject (place : Nat) :
    (runtime.closeObject place).observedAt object = runtime.observedAt object := by
  rw [closeObject]
  split
  · rfl
  · rw [closeConnection]
    split
    · rfl
    · exact observedAt_modifyObject _ fun connection => rfl

theorem observedAt_closeObjects (places : List Nat) :
    (places.foldl closeObject runtime).observedAt object = runtime.observedAt object := by
  induction places generalizing runtime with
  | nil => rfl
  | cons place places ih => rw [List.foldl_cons, ih, observedAt_closeObject]

theorem observedAt_release (place : Nat) :
    (runtime.release place).observedAt object = runtime.observedAt object := by
  rw [release]
  split
  · exact observedAt_closeObject place
  · exact observedAt_modifyObject _ fun connection => rfl

theorem observedAt_releaseLease (index : Nat) :
    (runtime.releaseLease index).observedAt object = runtime.observedAt object := by
  rw [releaseLease]
  split
  · exact observedAt_release _
  · rfl

theorem observedAt_acquire (exists_object : object < runtime.objects.length) :
    runtime.acquire.1.observedAt object = runtime.observedAt object := by
  rw [acquire]
  split
  · rfl
  split
  · rfl
  split
  · exact observedAt_modifyObject _ fun connection => rfl
  cases ended : runtime.manager.isShutdown with
  | true => simp [createConnection, ended]
  | false =>
    have newer : runtime.objects.length ≠ object := by omega
    simp only [createConnection, ended, Bool.false_eq_true, if_false]
    refine (observedAt_modifyObject_of_ne newer _).trans ?_
    simp [observedAt, List.getElem?_append_left exists_object]

/-- A connection that is not leased keeps its session, as long as the manager
is not shut down. -/
theorem observedAt_use (exists_object : object < runtime.objects.length)
    (free : object ∉ runtime.held) {event : SessionEvent}
    (running : event ≠ .pool .shutdownManager) :
    (runtime.use event).observedAt object = runtime.observedAt object := by
  have other : ∀ {index place : Nat} {isReset : Bool},
      runtime.leases[index]? = some ⟨place, isReset⟩ → place ≠ object := by
    rintro index place isReset found rfl
    exact free (List.mem_map.mpr ⟨_, List.mem_of_getElem? found, rfl⟩)
  cases event with
  | act index action =>
    rw [use, act]
    split
    · rename_i place found
      exact observedAt_modifyObject_of_ne (other found) _
    · rfl
  | pool event =>
    cases event with
    | acquire => exact observedAt_acquire exists_object
    | resetLease index =>
      rw [use, step, resetLease]
      split
      · rename_i place found
        exact observedAt_modifyObject_of_ne (other found) _
      · rfl
    | releaseLease index => exact observedAt_releaseLease index
    | shutdownPool => exact observedAt_closeObjects _
    | shutdownManager => exact absurd rfl running

theorem Booked.objects_le {before after : PooledRuntime} (booked : Booked before after) :
    before.objects.length ≤ after.objects.length := by
  cases booked with
  | created _ _ _ _ _ objects => omega
  | nothing _ _ objects | reused _ _ _ _ _ _ objects
  | givenBack _ _ _ _ _ _ objects | dropped _ _ _ _ objects
  | ended _ _ objects => exact objects.ge

theorem objects_le_use (runtime : PooledRuntime) (event : SessionEvent) :
    runtime.objects.length ≤ (runtime.use event).objects.length := by
  cases event with
  | pool event => exact (booked_step runtime event).objects_le
  | act index action =>
    rw [use, act]
    split
    · rw [length_modifyObject]
    · rfl

/-- The connection is not leased, and the manager is not shut down. -/
def Unleased (object : Nat) (runtime : PooledRuntime) (event : SessionEvent) : Prop :=
  object ∉ runtime.held ∧ event ≠ .pool .shutdownManager

theorem observedAt_run {object : Nat} {runtime : PooledRuntime}
    (exists_object : object < runtime.objects.length) {events : List SessionEvent}
    (unleased : GuardedRuns.Along use (Unleased object) runtime events) :
    (GuardedRuns.run use runtime events).observedAt object = runtime.observedAt object ∧
      object < (GuardedRuns.run use runtime events).objects.length := by
  induction events generalizing runtime with
  | nil => exact ⟨rfl, exists_object⟩
  | cons event events ih =>
    obtain ⟨⟨free, running⟩, rest⟩ := unleased
    obtain ⟨same, stays⟩ := ih (exists_object.trans_le (objects_le_use runtime event)) rest
    exact ⟨same.trans (observedAt_use exists_object free running), stays⟩

section Lease

variable {runtime : PooledRuntime} {index object : Nat} {connection : Connection}
  (leased : runtime.leases[index]? = some ⟨object, false⟩)
  (found : runtime.objects[object]? = some connection)

include leased found

theorem act_all (actions : List LesseeAction) :
    (actions.foldl (fun runtime action => runtime.act index action)
        runtime).leases[index]? = some ⟨object, false⟩ ∧
      (actions.foldl (fun runtime action => runtime.act index action)
        runtime).objects[object]? = some (connection.performAll actions) := by
  induction actions generalizing runtime connection with
  | nil => exact ⟨leased, found⟩
  | cons action actions ih =>
    have acted : runtime.act index action = runtime.modifyObject object (·.perform action) := by
      simp [act, leased]
    rw [List.foldl_cons, acted]
    apply ih
    · exact leased
    · simp [modifyObject, found]

theorem observedAt_endLease (actions : List LesseeAction) :
    (runtime.endLease index actions).observedAt object =
      some (connection.performAll actions).resetForPool.observed := by
  obtain ⟨stillLeased, changed⟩ := act_all leased found actions
  rw [endLease, observedAt_releaseLease, resetLease, stillLeased]
  simp [observedAt, modifyObject, changed]

theorem length_endLease (actions : List LesseeAction) :
    object < (runtime.endLease index actions).objects.length := by
  have seen := observedAt_endLease leased found actions
  rw [observedAt, Option.map_eq_some_iff] at seen
  obtain ⟨last, lastFound, -⟩ := seen
  exact (List.getElem?_eq_some_iff.mp lastFound).1

/-- The lessee after the next acquisition observes the reset session. -/
theorem observedAt_next {actions : List LesseeAction} {others : List SessionEvent}
    (unleased : GuardedRuns.Along use (Unleased object) (runtime.endLease index actions) others) :
    (GuardedRuns.run use (runtime.endLease index actions) others).acquire.1.observedAt object =
      some (connection.performAll actions).resetForPool.observed := by
  obtain ⟨same, exists_object⟩ := observedAt_run (length_endLease leased found actions) unleased
  rw [observedAt_acquire exists_object, same, observedAt_endLease leased found actions]

end Lease

/-- A lease ends after the actions of its holder, others use the pool, and a
connection is acquired, in two runs.  The connection of the lease then shows
the same fresh session and token exactly if both lessees left the default
memory limit. -/
theorem next_lessee_observes_fresh (runtime : PooledRuntime)
    (index object : Nat) (connection : Connection)
    (leased : runtime.leases[index]? = some ⟨object, false⟩)
    (found : runtime.objects[object]? = some connection) (first second : List LesseeAction)
    (afterFirst afterSecond : List SessionEvent)
    (firstUnleased : GuardedRuns.Along use (Unleased object)
      (runtime.endLease index first) afterFirst)
    (secondUnleased : GuardedRuns.Along use (Unleased object)
      (runtime.endLease index second) afterSecond) :
    ((GuardedRuns.run use (runtime.endLease index first)
          afterFirst).acquire.1.observedAt object = some ({}, {}) ∧
      (GuardedRuns.run use (runtime.endLease index second)
          afterSecond).acquire.1.observedAt object = some ({}, {})) ↔
      (connection.performAll first).session.memoryLimitBytes = 256 * 1024 * 1024 ∧
        (connection.performAll second).session.memoryLimitBytes = 256 * 1024 * 1024 := by
  rw [observedAt_next leased found firstUnleased, observedAt_next leased found secondUnleased,
    Option.some_inj, Option.some_inj, Connection.observed_resetForPool_iff,
    Connection.observed_resetForPool_iff]

/-- One lessee cancels and becomes read-only, the other changes nothing. -/
theorem next_lessee_observes_fresh_cancelled :
    ((start 1).acquire.1.endLease 0
        [.cancel, .assignSession { readOnly := true }]).acquire.1.observedAt 0 = some ({}, {}) ∧
      ((start 1).acquire.1.endLease 0 []).acquire.1.observedAt 0 = some ({}, {}) :=
  (next_lessee_observes_fresh (start 1).acquire.1 0 0 { id := 1, state := .busy } rfl rfl
    [.cancel, .assignSession { readOnly := true }] [] [] [] trivial trivial).mpr ⟨rfl, rfl⟩

/-- The memory limit of one lessee is that of the next. -/
theorem memory_limit_leaks :
    ((start 1).acquire.1.endLease 0 [.assignSession { memoryLimitBytes := 1 }]).acquire.2 = some 0 ∧
      (((start 1).acquire.1.endLease 0 [.assignSession { memoryLimitBytes := 1
        }]).acquire.1.observedAt 0).map (fun seen => seen.1.memoryLimitBytes) = some 1 ∧
      ((({} : SessionContext).memoryLimitBytes) = 256 * 1024 * 1024) := by decide

end Observations

end PooledRuntime

end KlyroDB
