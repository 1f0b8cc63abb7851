import KlyroDB.Connections
import KlyroDB.GuardedRuns
import Mathlib.Data.List.InsertIdx
import Mathlib.Data.List.Perm.Basic

/-!
# The accounts of the connection pool

Every step of the pool books a connection in one of few ways: it is created and
leased, leased again, given back, or dropped after the shutdown.
-/

namespace KlyroDB

namespace PooledRuntime

def held (runtime : PooledRuntime) : List Nat :=
  runtime.leases.map (·.connection)

section Frame

variable (runtime : PooledRuntime) (object : Nat)

@[simp]
theorem manager_modifyObject (change : Connection → Connection) :
    (runtime.modifyObject object change).manager = runtime.manager :=
  rfl

@[simp]
theorem length_modifyObject (change : Connection → Connection) :
    (runtime.modifyObject object change).objects.length = runtime.objects.length := by
  simp [modifyObject]

structure SameBooks (before after : PooledRuntime) : Prop where
  pool : after.pool = before.pool
  leases : after.leases = before.leases
  objects : after.objects.length = before.objects.length

theorem SameBooks.refl : SameBooks runtime runtime :=
  ⟨rfl, rfl, rfl⟩

theorem SameBooks.trans {first second third : PooledRuntime}
    (one : SameBooks first second) (two : SameBooks second third) : SameBooks first third :=
  ⟨two.pool.trans one.pool, two.leases.trans one.leases, two.objects.trans one.objects⟩

theorem sameBooks_modifyObject (change : Connection → Connection) :
    SameBooks runtime (runtime.modifyObject object change) :=
  ⟨rfl, rfl, length_modifyObject ..⟩

theorem sameBooks_closeConnection (id : Nat) : SameBooks runtime (runtime.closeConnection id) := by
  rw [closeConnection]
  split
  · exact .refl runtime
  · exact ⟨rfl, rfl, length_modifyObject ..⟩

theorem sameBooks_closeObject : SameBooks runtime (runtime.closeObject object) := by
  rw [closeObject]
  split
  · exact .refl runtime
  · exact sameBooks_closeConnection ..

theorem sameBooks_foldl {change : PooledRuntime → Nat → PooledRuntime}
    (one : ∀ runtime object, SameBooks runtime (change runtime object)) (objects : List Nat) :
    SameBooks runtime (objects.foldl change runtime) := by
  induction objects generalizing runtime with
  | nil => exact .refl runtime
  | cons object objects ih => exact (one runtime object).trans (ih (change runtime object))

theorem sameBooks_shutdownManager : SameBooks runtime runtime.shutdownManager := by
  have closed := sameBooks_foldl runtime (fun runtime object => sameBooks_modifyObject runtime
    object fun conn => (conn.setState .closed).cancel)
    (runtime.manager.connections.entries.map (·.2))
  exact ⟨closed.pool, closed.leases, closed.objects⟩

end Frame

inductive Booked (before after : PooledRuntime) : Prop
  | nothing (pool : after.pool = before.pool) (held : after.held = before.held)
      (objects : after.objects.length = before.objects.length)
  | reused (object : Nat) (rest : List Nat) (running : before.pool.isShutdown = false)
      (idle : before.pool.idle = object :: rest)
      (pool : after.pool =
        { before.pool with
          idle := rest, activeCount := before.pool.activeCount + 1 })
      (held : after.held = object :: before.held)
      (objects : after.objects.length = before.objects.length)
  | created (running : before.pool.isShutdown = false) (idle : before.pool.idle = [])
      (room : before.pool.activeCount < before.pool.maxConnections)
      (pool : after.pool = { before.pool with activeCount := before.pool.activeCount + 1 })
      (held : after.held = before.objects.length :: before.held)
      (objects : after.objects.length = before.objects.length + 1)
  | givenBack (object index : Nat) (running : before.pool.isShutdown = false)
      (lease : before.held[index]? = some object)
      (pool : after.pool =
        { before.pool with
          idle := before.pool.idle ++ [object]
          activeCount := before.pool.activeCount - 1 })
      (held : after.held = before.held.eraseIdx index)
      (objects : after.objects.length = before.objects.length)
  | dropped (index : Nat) (ended : before.pool.isShutdown = true) (pool : after.pool = before.pool)
      (held : after.held = before.held.eraseIdx index) (objects : after.objects.length =
      before.objects.length)
  | ended (pool : after.pool = { before.pool with idle := [], isShutdown := true })
      (held : after.held = before.held)
      (objects : after.objects.length = before.objects.length)

theorem SameBooks.booked {before after : PooledRuntime}
    (same : SameBooks before after) : Booked before after :=
  .nothing same.pool (congrArg (List.map _) same.leases) same.objects

section

variable (runtime : PooledRuntime)

include runtime

theorem booked_acquire : Booked runtime runtime.acquire.1 := by
  rw [acquire]
  split
  · exact (SameBooks.refl runtime).booked
  rename_i proceeds
  split
  · exact (SameBooks.refl runtime).booked
  rename_i running
  rw [Bool.not_eq_true] at running
  split
  · rename_i object rest idle
    exact .reused object rest running idle rfl rfl (length_modifyObject ..)
  rename_i idle
  have room : runtime.pool.activeCount < runtime.pool.maxConnections := by
    simpa [canProceed, running, idle] using proceeds
  cases closed : runtime.manager.isShutdown with
  | true => simpa [createConnection, closed] using (SameBooks.refl runtime).booked
  | false =>
    refine .created running idle room ?_ ?_ ?_
    · simp [createConnection, closed, lease]
    · simp [createConnection, closed, lease, held]
    · simp [createConnection, closed, lease]

theorem held_resetLease (index : Nat) : (runtime.resetLease index).held = runtime.held := by
  rw [resetLease]
  split
  · rename_i object found
    obtain ⟨inside, value⟩ := List.getElem?_eq_some_iff.mp found
    rw [held, List.map_set]
    apply List.ext_getElem?
    intro place
    by_cases same : index = place
    · subst same
      simp [held, inside, value]
    · rw [List.getElem?_set_ne same, held]
  · rfl

theorem booked_resetLease (index : Nat) : Booked runtime (runtime.resetLease index) := by
  refine .nothing ?_ (held_resetLease runtime index) ?_
  · rw [resetLease]
    split <;> rfl
  · rw [resetLease]
    split
    · exact length_modifyObject ..
    · rfl

theorem booked_releaseLease (index : Nat) : Booked runtime (runtime.releaseLease index) := by
  rw [releaseLease]
  split
  · rename_i object found
    have lease : runtime.held[index]? = some object := by simp [held, found]
    rw [release]
    cases ended : runtime.pool.isShutdown with
    | true =>
      have same := sameBooks_closeObject runtime object
      exact .dropped index ended same.pool (List.eraseIdx_map ..).symm same.objects
    | false =>
      exact .givenBack object index ended lease rfl
        (List.eraseIdx_map ..).symm (length_modifyObject ..)
  · exact (SameBooks.refl runtime).booked

theorem booked_shutdownPool : Booked runtime runtime.shutdownPool := by
  have closed := sameBooks_foldl { runtime with pool := { runtime.pool with isShutdown := true } }
    sameBooks_closeObject runtime.pool.idle
  refine .ended ?_ ?_ closed.objects
  · rw [shutdownPool]
    simp only [closed.pool]
  · exact congrArg (List.map _) closed.leases

theorem booked_step (event : LeaseEvent) : Booked runtime (runtime.step event) := by
  cases event with
  | acquire => exact booked_acquire runtime
  | resetLease index => exact booked_resetLease runtime index
  | releaseLease index => exact booked_releaseLease runtime index
  | shutdownPool => exact booked_shutdownPool runtime
  | shutdownManager => exact (sameBooks_shutdownManager runtime).booked

end

/-- The accounts of the pool are in order. -/
structure Accounted (runtime : PooledRuntime) : Prop where
  distinct : (runtime.held ++ runtime.pool.idle).Nodup
  exists_object : ∀ object ∈ runtime.held ++ runtime.pool.idle, object < runtime.objects.length
  activeCount_eq : runtime.pool.isShutdown = false →
    runtime.pool.activeCount = runtime.leases.length
  within_limit : runtime.pool.isShutdown = false → runtime.leases.length + runtime.pool.idle.length
    ≤ runtime.pool.maxConnections
  idle_empty : runtime.pool.isShutdown = true → runtime.pool.idle = []

theorem accounted_start (maxConnections : Nat) : Accounted (start maxConnections) where
  distinct := List.nodup_nil
  exists_object _ mem := absurd mem List.not_mem_nil
  activeCount_eq _ := rfl
  within_limit _ := Nat.zero_le _
  idle_empty _ := rfl

theorem length_held (runtime : PooledRuntime) : runtime.held.length = runtime.leases.length :=
  List.length_map ..

/-- A lease that is given back leaves the rest of the leases and its
connection. -/
theorem eraseIdx_perm {held : List Nat} {object index : Nat} (lease : held[index]? = some object) :
    held.Perm (object :: held.eraseIdx index) := by
  obtain ⟨inside, rfl⟩ := List.getElem?_eq_some_iff.mp lease
  exact (List.getElem_cons_eraseIdx_perm inside).symm

theorem Accounted.of_booked {before after : PooledRuntime}
    (accounted : Accounted before) (booked : Booked before after) : Accounted after := by
  obtain ⟨distinct, exists_object, activeCount_eq, within_limit, idle_empty⟩ := accounted
  rw [← length_held] at activeCount_eq within_limit
  cases booked with
  | nothing pool held objects =>
    refine ⟨?_, ?_, ?_, ?_, ?_⟩ <;> simp only [pool, held, objects, ← length_held] <;> assumption
  | reused object rest running idle pool held objects =>
    rw [idle] at distinct exists_object within_limit
    refine ⟨?_, ?_, ?_, ?_, ?_⟩ <;> simp only [pool, held, objects, ← length_held]
    · exact List.nodup_middle.mp distinct
    · intro other mem
      exact exists_object other (List.perm_middle.mem_iff.mpr mem)
    · intro _
      rw [activeCount_eq running, List.length_cons]
    · intro _
      have limit := within_limit running
      rw [List.length_cons] at limit ⊢
      omega
    · rw [running]
      exact nofun
  | created running idle room pool held objects =>
    rw [idle, List.append_nil] at distinct exists_object
    refine ⟨?_, ?_, ?_, ?_, ?_⟩ <;>
      simp only [pool, held, objects, ← length_held, idle, List.append_nil]
    · refine List.nodup_cons.mpr ⟨fun mem => ?_, distinct⟩
      exact Nat.lt_irrefl _ (exists_object _ mem)
    · intro other mem
      rcases List.mem_cons.mp mem with rfl | older
      · exact Nat.lt_succ_self _
      · exact Nat.lt_succ_of_lt (exists_object other older)
    · intro _
      rw [activeCount_eq running, List.length_cons]
    · intro _
      rw [activeCount_eq running] at room
      rw [List.length_cons, List.length_nil]
      omega
    · exact fun _ => trivial
  | givenBack object index running lease pool held objects =>
    have moved := eraseIdx_perm lease
    have permuted : (before.held ++ before.pool.idle).Perm
        (before.held.eraseIdx index ++ (before.pool.idle ++ [object])) := by
      rw [← List.append_assoc]
      exact (moved.append_right _).trans (List.perm_append_singleton object _).symm
    have counted := moved.length_eq
    rw [List.length_cons] at counted
    refine ⟨?_, ?_, ?_, ?_, ?_⟩ <;> simp only [pool, held, objects, ← length_held]
    · exact permuted.nodup_iff.mp distinct
    · intro other mem
      exact exists_object other (permuted.mem_iff.mpr mem)
    · intro _
      rw [activeCount_eq running]
      omega
    · intro _
      have limit := within_limit running
      rw [List.length_append, List.length_singleton]
      omega
    · rw [running]
      exact nofun
  | dropped index ended pool held objects =>
    rw [idle_empty ended, List.append_nil] at distinct exists_object
    refine ⟨?_, ?_, ?_, ?_, ?_⟩ <;> simp only [pool, held, objects, ← length_held, idle_empty ended,
      List.append_nil]
    · exact distinct.eraseIdx index
    · intro other mem
      exact exists_object other (List.mem_of_mem_eraseIdx mem)
    · rw [ended]
      exact nofun
    · rw [ended]
      exact nofun
    · exact fun _ => trivial
  | ended pool held objects =>
    refine ⟨?_, ?_, ?_, ?_, ?_⟩ <;> simp only [pool, held, objects, ← length_held, List.append_nil]
    · exact (List.nodup_append.mp distinct).1
    · intro other mem
      exact exists_object other (List.mem_append_left _ mem)
    · exact nofun
    · exact nofun
    · exact fun _ => trivial

theorem Accounted.step {runtime : PooledRuntime}
    (accounted : Accounted runtime) (event : LeaseEvent) : Accounted (runtime.step event) :=
  accounted.of_booked (booked_step runtime event)

theorem Accounted.run {runtime : PooledRuntime}
    (accounted : Accounted runtime) (events : List LeaseEvent) :
    Accounted (GuardedRuns.run PooledRuntime.step runtime events) := by
  induction events generalizing runtime with
  | nil => exact accounted
  | cons event events ih => exact ih (accounted.step event)

theorem Booked.maxConnections {before after : PooledRuntime} (booked : Booked before after) :
    after.pool.maxConnections = before.pool.maxConnections := by
  cases booked with
  | nothing pool | reused _ _ _ _ pool | created _ _ _ pool
  | givenBack _ _ _ _ pool | dropped _ _ pool | ended pool => rw [pool]

theorem maxConnections_run (runtime : PooledRuntime) (events : List LeaseEvent) :
    (GuardedRuns.run step runtime events).pool.maxConnections = runtime.pool.maxConnections := by
  induction events generalizing runtime with
  | nil => rfl
  | cons event events ih => exact (ih _).trans (booked_step runtime event).maxConnections

def after (maxConnections : Nat) (events : List LeaseEvent) : PooledRuntime :=
  GuardedRuns.run step (start maxConnections) events

theorem accounted_after (maxConnections : Nat) (events : List LeaseEvent) :
    Accounted (after maxConnections events) :=
  (accounted_start maxConnections).run events

theorem Booked.of_ended {before after : PooledRuntime}
    (booked : Booked before after) (ended : before.pool.isShutdown = true) :
    after.pool.isShutdown = true ∧ after.held.Sublist before.held := by
  cases booked with
  | nothing pool held objects =>
    rw [pool, held]
    exact ⟨ended, .refl _⟩
  | reused object rest running idle pool held objects
  | created running idle room pool held objects
  | givenBack object index running lease pool held objects =>
    rw [ended] at running
    cases running
  | dropped index _ pool held objects =>
    rw [pool, held]
    exact ⟨ended, List.eraseIdx_sublist ..⟩
  | ended pool held objects =>
    rw [pool, held]
    exact ⟨rfl, .refl _⟩

theorem run_of_ended {runtime : PooledRuntime}
    (ended : runtime.pool.isShutdown = true) (later : List LeaseEvent) :
    (GuardedRuns.run step runtime later).pool.isShutdown = true ∧
      (GuardedRuns.run step runtime later).held.Sublist runtime.held := by
  induction later generalizing runtime with
  | nil => exact ⟨ended, .refl _⟩
  | cons event later ih =>
    obtain ⟨stays, fewer⟩ := (booked_step runtime event).of_ended ended
    obtain ⟨last, rest⟩ := ih stays
    exact ⟨last, rest.trans fewer⟩

end PooledRuntime

end KlyroDB
