import KlyroDB.PoolAccounting
import KlyroDB.MapUpdates

/-!
# Closed connections

The destructor of a lease and `acquire` set the state of their connection
without a look at the old one, so a closed connection stays closed only if
neither comes after the shutdown of the manager.
-/

namespace KlyroDB

namespace PooledRuntime

section Modify

variable {Item : Type*} {change : Item → Item}

theorem getElem?_foldl_modify (idempotent : ∀ item, change (change item) = change item)
    (places : List Nat) (items : List Item) (place : Nat) :
    (places.foldl (fun items place => items.modify place change) items)[place]? =
      items[place]?.map fun item => if place ∈ places then change item else item := by
  induction places generalizing items with
  | nil => simp
  | cons first places ih =>
    rw [List.foldl_cons, ih, List.getElem?_modify, Option.map_eq_map, Option.map_map]
    congr 1
    funext item
    by_cases here : first = place
    · subst here
      by_cases again : first ∈ places <;> simp [again, idempotent]
    · have other : place ≠ first := fun same => here same.symm
      simp [here, other]

end Modify

/-- The manager knows every connection that is not closed, and each identifier
stands for one connection. -/
structure Registered (runtime : PooledRuntime) : Prop where
  id_eq : ∀ object connection, runtime.objects[object]? = some connection →
    connection.id = (object + 1) % 2 ^ 32
  few : runtime.objects.length ≤ 2 ^ 32
  nextId_eq : runtime.manager.nextId = runtime.objects.length + 1
  listed : ∀ object connection, runtime.objects[object]? = some connection → connection.state ≠
    .closed → runtime.manager.connections.lookup connection.id = some object
  named : ∀ id object, runtime.manager.connections.lookup id = some object → ∃ connection,
    runtime.objects[object]? = some connection ∧ connection.id = id

theorem Registered.object_eq {runtime : PooledRuntime}
    (registered : Registered runtime) {one two : Nat}
    {first second : Connection} (left : runtime.objects[one]? = some first)
    (right : runtime.objects[two]? = some second) (same : first.id = second.id) : one = two := by
  have oneBound := (List.getElem?_eq_some_iff.mp left).1
  have twoBound := (List.getElem?_eq_some_iff.mp right).1
  rw [registered.id_eq one first left, registered.id_eq two second right] at same
  have few := registered.few
  omega

theorem registered_start (maxConnections : Nat) : Registered (start maxConnections) where
  id_eq _ _ found := by simp [start] at found
  few := Nat.zero_le _
  nextId_eq := rfl
  listed _ _ found := by simp [start] at found
  named _ _ found := by simp [start] at found

/-- A change that keeps the identifier and does not open a closed connection
keeps the registry. -/
theorem Registered.modifyObject {runtime : PooledRuntime}
    (registered : Registered runtime) (object : Nat) {change : Connection → Connection}
    (sameId : ∀ conn, (change conn).id = conn.id)
    (known : ∀ conn, runtime.objects[object]? = some conn → (change conn).state ≠ .closed →
      runtime.manager.connections.lookup conn.id = some object) :
    Registered (runtime.modifyObject object change) := by
  have found : ∀ place conn, (runtime.modifyObject object change).objects[place]? = some
      conn → ∃ old, runtime.objects[place]? = some old ∧ conn.id = old.id ∧ (object =
      place ∧ conn = change old ∨ conn = old) := by
    intro place conn at_place
    rw [PooledRuntime.modifyObject, List.getElem?_modify,
      Option.map_eq_map, Option.map_eq_some_iff] at at_place
    obtain ⟨old, oldFound, rfl⟩ := at_place
    by_cases here : object = place
    · refine ⟨old, oldFound, ?_, Or.inl ⟨here, ?_⟩⟩ <;> simp [here, sameId]
    · refine ⟨old, oldFound, ?_, Or.inr ?_⟩ <;> simp [here]
  refine ⟨?_, ?_, ?_, ?_, ?_⟩
  · intro place conn at_place
    obtain ⟨old, oldFound, same, -⟩ := found place conn at_place
    rw [same, registered.id_eq place old oldFound]
  · rw [length_modifyObject]
    exact registered.few
  · rw [length_modifyObject]
    exact registered.nextId_eq
  · intro place conn at_place alive
    obtain ⟨old, oldFound, same, ⟨rfl, rfl⟩ | rfl⟩ := found place conn at_place
    · rw [same]
      exact known old oldFound alive
    · exact registered.listed place conn oldFound alive
  intro id place listed
  obtain ⟨old, oldFound, rfl⟩ := registered.named id place listed
  refine ⟨if object = place then change old else old, ?_, ?_⟩
  · rw [PooledRuntime.modifyObject, List.getElem?_modify, oldFound]
    rfl
  · split
    · exact sameId old
    · rfl

theorem Registered.erase {runtime : PooledRuntime}
    (registered : Registered runtime) {object : Nat} {conn : Connection}
    (found : runtime.objects[object]? = some conn) (closed : conn.state = .closed) :
    Registered { runtime with manager :=
        { runtime.manager with
          connections := runtime.manager.connections.erase conn.id } } := by
  refine ⟨registered.id_eq, registered.few, registered.nextId_eq, ?_, ?_⟩
  · intro place other otherFound alive
    have differs : other.id ≠ conn.id := by
      intro same
      have places := registered.object_eq otherFound found same
      subst places
      rw [found] at otherFound
      cases otherFound
      exact alive closed
    rw [AList.lookup_erase_ne differs]
    exact registered.listed place other otherFound alive
  intro id place listed
  exact registered.named id place (AList.lookup_erase_cases listed).2

theorem modify_concat_length {Item : Type*} (change : Item → Item)
    (items : List Item) (item : Item) :
    (items ++ [item]).modify items.length change = items ++ [change item] := by
  induction items with
  | nil => rfl
  | cons first items ih => simp [ih]

theorem modify_of_fixed {Item : Type*} {change : Item → Item} {items : List Item} {place : Nat}
    (fixed : ∀ item, items[place]? = some item → change item = item) :
    items.modify place change = items := by
  apply List.ext_getElem?
  intro other
  rw [List.getElem?_modify, Option.map_eq_map]
  cases found : items[other]? with
  | none => rfl
  | some item =>
    by_cases here : place = other
    · subst here
      simp [fixed item found]
    · simp [here]

section Closing

variable {runtime : PooledRuntime} (registered : Registered runtime)

include registered

theorem Registered.closeObject (object : Nat) : Registered (runtime.closeObject object) ∧
    (runtime.closeObject object).objects = runtime.objects.modify object (·.setState .closed) := by
  rw [PooledRuntime.closeObject]
  cases found : runtime.objects[object]? with
  | none => exact ⟨registered, (modify_of_fixed (by simp [found])).symm⟩
  | some conn =>
    dsimp only
    rw [closeConnection]
    cases listed : runtime.manager.connections.lookup conn.id with
    | none =>
      refine ⟨registered, (modify_of_fixed fun other otherFound => ?_).symm⟩
      rw [found] at otherFound
      cases otherFound
      have closed : conn.state = .closed := by
        by_contra alive
        rw [registered.listed object conn found alive] at listed
        cases listed
      rw [Connection.setState, ← closed]
    | some other =>
      obtain ⟨named, namedFound, same⟩ := registered.named _ other listed
      rw [registered.object_eq namedFound found same]
      have closed : Registered (runtime.modifyObject object (·.setState .closed)) :=
          registered.modifyObject object (fun conn => rfl) fun conn _ alive => absurd
          rfl alive
      have stored : (runtime.modifyObject object (·.setState .closed)).objects[object]? = some
          (conn.setState .closed) := by simp [PooledRuntime.modifyObject, found]
      have erased := closed.erase stored rfl
      exact ⟨erased, rfl⟩

theorem Registered.closeObjects (objects : List Nat) :
    Registered (objects.foldl PooledRuntime.closeObject runtime) ∧
      (objects.foldl PooledRuntime.closeObject runtime).objects = objects.foldl
          (fun items place => items.modify place (·.setState .closed)) runtime.objects := by
  induction objects generalizing runtime with
  | nil => exact ⟨registered, rfl⟩
  | cons object objects ih =>
    obtain ⟨kept, closed⟩ := registered.closeObject object
    rw [List.foldl_cons, List.foldl_cons, ← closed]
    exact ih kept

end Closing

theorem isShutdown_closeObject (runtime : PooledRuntime) (object : Nat) :
    (runtime.closeObject object).manager.isShutdown = runtime.manager.isShutdown := by
  rw [closeObject]
  split
  · rfl
  · rw [closeConnection]
    split <;> rfl

theorem isShutdown_closeObjects (runtime : PooledRuntime) (objects : List Nat) :
    (objects.foldl closeObject runtime).manager.isShutdown = runtime.manager.isShutdown := by
  induction objects generalizing runtime with
  | nil => rfl
  | cons object objects ih => rw [List.foldl_cons, ih, isShutdown_closeObject]

/-- Closed connections stay closed, and their tokens stay cancelled. -/
def Lasting (before after : PooledRuntime) : Prop :=
  ∀ (object : Nat) (connection : Connection), before.objects[object]? = some connection →
    connection.state = .closed →
    ∃ later : Connection, after.objects[object]? = some later ∧ later.state = .closed ∧
      (connection.cancelToken.cancelled = true → later.cancelToken.cancelled = true)

theorem Lasting.refl (runtime : PooledRuntime) : Lasting runtime runtime :=
  fun _ conn found closed => ⟨conn, found, closed, id⟩

theorem Lasting.trans {first second third : PooledRuntime}
    (one : Lasting first second) (two : Lasting second third) : Lasting first third := by
  intro object conn found closed
  obtain ⟨next, nextFound, nextClosed, kept⟩ := one object conn found closed
  obtain ⟨last, lastFound, lastClosed, keptAgain⟩ := two object next nextFound nextClosed
  exact ⟨last, lastFound, lastClosed, fun cancelled =>
    keptAgain (kept cancelled)⟩

/-- What the states of the connections say, as long as the manager has not
been shut down and after that. -/
structure Guarded (runtime : PooledRuntime) : Prop where
  registered : Registered runtime
  not_in_use : runtime.manager.isShutdown = false → ∀ object connection, runtime.objects[object]? =
    some connection → connection.state = .closed → object ∉ runtime.held ++ runtime.pool.idle
  all_closed : runtime.manager.isShutdown = true →
    ∀ connection ∈ runtime.objects, connection.state = .closed

section

variable {before after : PooledRuntime} (guarded : Guarded before)

include guarded

omit guarded in
theorem Registered.of_eq (registered : Registered before) (manager : after.manager = before.manager)
    (objects : after.objects = before.objects) : Registered after := by
  obtain ⟨id_eq, few, nextId_eq, listed, named⟩ := registered
  constructor <;> simp only [manager, objects] <;> assumption

theorem Guarded.of_same (manager : after.manager = before.manager)
    (objects : after.objects = before.objects) (inUse : ∀ object ∈ after.held ++ after.pool.idle,
      object ∈ before.held ++ before.pool.idle) : Guarded after ∧ Lasting before after := by
  refine ⟨⟨guarded.registered.of_eq manager objects, ?_, ?_⟩, ?_⟩
  · rw [manager, objects]
    intro running object conn found closed mem
    exact guarded.not_in_use running object conn found closed (inUse object mem)
  · rw [manager, objects]
    exact guarded.all_closed
  · intro object conn found closed
    rw [objects]
    exact ⟨conn, found, closed, id⟩

theorem Guarded.of_used {object : Nat} (change : Connection → Connection)
    (running : before.manager.isShutdown = false) (used : object ∈ before.held ++ before.pool.idle)
    (sameId : ∀ conn, (change conn).id = conn.id)
    (opened : ∀ conn, (change conn).state ≠ .closed)
    (manager : after.manager = before.manager)
    (objects : after.objects = before.objects.modify object change)
    (inUse : ∀ object ∈ after.held ++ after.pool.idle, object ∈ before.held ++ before.pool.idle) :
    Guarded after ∧ Lasting before after := by
  have alive : ∀ conn, before.objects[object]? = some conn →
      conn.state ≠ .closed := fun conn found closed =>
    guarded.not_in_use running object conn found closed used
  have kept := guarded.registered.modifyObject object sameId fun conn found _ =>
    guarded.registered.listed object conn found (alive conn found)
  refine ⟨⟨kept.of_eq manager objects, ?_, ?_⟩, ?_⟩
  · rw [objects]
    intro _ place conn found closed mem
    rw [List.getElem?_modify, Option.map_eq_map, Option.map_eq_some_iff] at found
    obtain ⟨old, oldFound, rfl⟩ := found
    by_cases here : object = place
    · rw [if_pos here] at closed
      exact opened old closed
    · rw [if_neg here] at closed
      exact guarded.not_in_use running place old oldFound closed (inUse place mem)
  · rw [manager, running]
    exact nofun
  intro place conn found closed
  have other : object ≠ place := by
    rintro rfl
    exact alive conn found closed
  rw [objects, List.getElem?_modify, found]
  exact ⟨conn, by simp [other], closed, id⟩

theorem Guarded.of_closed (closing : List Nat) (registered : Registered after)
    (manager : after.manager.isShutdown = before.manager.isShutdown)
    (objects : after.objects = closing.foldl
      (fun items place => items.modify place (·.setState .closed)) before.objects)
    (inUse : ∀ object ∈ after.held ++ after.pool.idle,
      object ∈ before.held ++ before.pool.idle ∧ object ∉ closing) :
    Guarded after ∧ Lasting before after := by
  have place_eq : ∀ place : Nat, after.objects[place]? =
      before.objects[place]?.map fun conn =>
        if place ∈ closing then conn.setState .closed
        else conn := by
    intro place
    rw [objects]
    apply getElem?_foldl_modify
    exact fun conn => rfl
  refine ⟨⟨registered, ?_, ?_⟩, ?_⟩
  · intro running place conn found closed mem
    rw [place_eq, Option.map_eq_some_iff] at found
    obtain ⟨old, oldFound, rfl⟩ := found
    rw [if_neg (inUse place mem).2] at closed
    exact guarded.not_in_use (manager ▸ running) place old oldFound closed (inUse place mem).1
  · intro ended conn mem
    obtain ⟨place, found⟩ := List.mem_iff_getElem?.mp mem
    rw [place_eq, Option.map_eq_some_iff] at found
    obtain ⟨old, oldFound, rfl⟩ := found
    have closed := guarded.all_closed (manager ▸ ended) old (List.mem_of_getElem? oldFound)
    split
    · rfl
    · exact closed
  intro place conn found closed
  rw [place_eq, found]
  refine ⟨_, rfl, ?_, ?_⟩
  · split
    · rfl
    · exact closed
  · split
    · exact id
    · exact id

theorem Guarded.of_created (room : before.objects.length < 2 ^ 32)
    (running : before.manager.isShutdown = false) (manager : after.manager =
      { before.manager with
        nextId := before.manager.nextId + 1
        connections := before.manager.connections.insert
          (before.manager.nextId % 2 ^ 32) before.objects.length })
    (objects : after.objects = before.objects ++
      [{ id := before.manager.nextId % 2 ^ 32, state := .busy }])
    (inUse : ∀ object ∈ after.held ++ after.pool.idle, object = before.objects.length ∨ object ∈
      before.held ++ before.pool.idle) : Guarded after ∧ Lasting before after := by
  obtain ⟨registered, not_in_use, all_closed⟩ := guarded
  have newId := registered.nextId_eq
  have found_cases : ∀ (place : Nat) (conn : Connection), after.objects[place]? = some
      conn → before.objects[place]? = some conn ∨ place = before.objects.length ∧
      conn = { id := before.manager.nextId % 2 ^ 32, state := .busy } := by
    intro place conn found
    rw [objects, List.getElem?_append] at found
    split at found
    · exact Or.inl found
    rename_i outside
    have last : place - before.objects.length = 0 := by
      by_contra later
      rw [List.getElem?_eq_none (by simp; omega)] at found
      cases found
    rw [last] at found
    cases found
    exact Or.inr ⟨by omega, rfl⟩
  have old_found : ∀ (place : Nat) (conn : Connection), before.objects[place]? = some
      conn → after.objects[place]? = some conn := by
    intro place conn found
    rw [objects, List.getElem?_append_left (List.getElem?_eq_some_iff.mp found).1]
    exact found
  refine ⟨⟨⟨?_, ?_, ?_, ?_, ?_⟩, ?_, ?_⟩, ?_⟩
  · intro place conn found
    rcases found_cases place conn found with older | ⟨rfl, rfl⟩
    · exact registered.id_eq place conn older
    · exact congrArg (· % 2 ^ 32) newId
  · rw [objects, List.length_append, List.length_singleton]
    exact room
  · rw [manager, objects, List.length_append, List.length_singleton, newId]
  · intro place conn found alive
    rw [manager]
    rcases found_cases place conn found with older | ⟨rfl, rfl⟩
    · have inside := (List.getElem?_eq_some_iff.mp older).1
      have differs : conn.id ≠ before.manager.nextId % 2 ^ 32 := by
        rw [registered.id_eq place conn older, newId]
        omega
      rw [AList.lookup_insert_ne differs]
      exact registered.listed place conn older alive
    · exact AList.lookup_insert _
  · intro id place listed
    rw [manager] at listed
    rcases AList.lookup_insert_cases listed with ⟨new, rfl⟩ | ⟨-, listed⟩
    · exact ⟨_, by rw [objects, List.getElem?_concat_length], new.symm⟩
    · obtain ⟨conn, found, same⟩ := registered.named id place listed
      exact ⟨conn, old_found place conn found, same⟩
  · intro _ place conn found closed mem
    rcases found_cases place conn found with older | ⟨rfl, rfl⟩
    · rcases inUse place mem with rfl | used
      · exact absurd (List.getElem?_eq_some_iff.mp older).1 (Nat.lt_irrefl _)
      · exact not_in_use running place conn older closed used
    · cases closed
  · rw [manager, running]
    exact nofun
  · intro place conn found closed
    exact ⟨conn, old_found place conn found, closed, id⟩

end

theorem objects_shutdownManager (runtime : PooledRuntime) :
    runtime.shutdownManager.objects = (runtime.manager.connections.entries.map (·.2)).foldl
        (fun items place => items.modify place
          fun conn => (conn.setState .closed).cancel) runtime.objects := by
  have folded : ∀ (places : List Nat) (runtime : PooledRuntime),
      (places.foldl (fun (runtime : PooledRuntime) object =>
          runtime.modifyObject object fun conn => (conn.setState .closed).cancel)
        runtime).objects =
        places.foldl (fun items place => items.modify place fun conn =>
          (conn.setState .closed).cancel) runtime.objects := by
    intro places
    induction places with
    | nil => exact fun runtime => rfl
    | cons place places ih => exact fun runtime => ih _
  exact folded _ runtime

theorem getElem?_shutdownManager (runtime : PooledRuntime) (place : Nat) :
    runtime.shutdownManager.objects[place]? = runtime.objects[place]?.map fun connection =>
      if place ∈ runtime.manager.connections.entries.map (·.2) then
        (connection.setState .closed).cancel
      else connection := by
  rw [objects_shutdownManager]
  apply getElem?_foldl_modify
  exact fun _ => rfl

theorem Guarded.shutdownManager {runtime : PooledRuntime} (guarded : Guarded runtime) :
    Guarded runtime.shutdownManager ∧ Lasting runtime runtime.shutdownManager := by
  have books := sameBooks_shutdownManager runtime
  have place_eq := getElem?_shutdownManager runtime
  have closed_after : ∀ conn ∈ runtime.shutdownManager.objects, conn.state = .closed := by
    intro conn mem
    obtain ⟨place, found⟩ := List.mem_iff_getElem?.mp mem
    rw [place_eq, Option.map_eq_some_iff] at found
    obtain ⟨old, oldFound, rfl⟩ := found
    split
    · rfl
    · rename_i unlisted
      by_contra alive
      have listed := guarded.registered.listed place old oldFound alive
      exact unlisted (List.mem_map.mpr ⟨⟨old.id, place⟩, AList.mem_lookup_iff.mp listed, rfl⟩)
  refine ⟨⟨⟨?_, ?_, ?_, ?_, ?_⟩, ?_, ?_⟩, ?_⟩
  · intro place conn found
    rw [place_eq, Option.map_eq_some_iff] at found
    obtain ⟨old, oldFound, rfl⟩ := found
    rw [← guarded.registered.id_eq place old oldFound]
    split <;> rfl
  · rw [books.objects]
    exact guarded.registered.few
  · rw [books.objects]
    exact guarded.registered.nextId_eq
  · intro place conn found alive
    exact absurd (closed_after conn (List.mem_of_getElem? found)) alive
  · intro id place listed
    cases listed
  · exact nofun
  · exact fun _ => closed_after
  intro place conn found closed
  rw [place_eq, found]
  refine ⟨_, rfl, ?_, ?_⟩
  · split
    · rfl
    · exact closed
  · split
    · exact fun _ => rfl
    · exact id

/-- After the shutdown of the manager no idle connection is handed out, and a
lease is not reset or given back to a pool that is still open. -/
def Permitted (runtime : PooledRuntime) : LeaseEvent → Prop
  | .acquire => runtime.manager.isShutdown = true →
      runtime.pool.isShutdown = true ∨ runtime.pool.idle = []
  | .resetLease _ => runtime.manager.isShutdown = false
  | .releaseLease _ => runtime.manager.isShutdown = false ∨ runtime.pool.isShutdown = true
  | .shutdownPool => True
  | .shutdownManager => True

instance (runtime : PooledRuntime) (event : LeaseEvent) : Decidable (Permitted runtime event) := by
  cases event <;> unfold Permitted <;> infer_instance

structure Supervised (runtime : PooledRuntime) : Prop where
  accounted : Accounted runtime
  guarded : Guarded runtime
  limited : runtime.pool.maxConnections ≤ 2 ^ 32
  counted : runtime.pool.isShutdown = false →
    runtime.objects.length = runtime.held.length + runtime.pool.idle.length

theorem supervised_start {maxConnections : Nat} (limited : maxConnections ≤ 2 ^ 32) :
    Supervised (start maxConnections) where
  accounted := accounted_start maxConnections
  guarded :=
    { registered := registered_start maxConnections
      not_in_use := fun _ _ _ found => by simp [start] at found
      all_closed := nofun }
  limited := limited
  counted _ := rfl

theorem counted_of_booked {before after : PooledRuntime}
    (counted : before.pool.isShutdown = false → before.objects.length =
      before.held.length + before.pool.idle.length)
    (booked : Booked before after) (running : after.pool.isShutdown = false) :
    after.objects.length = after.held.length + after.pool.idle.length := by
  cases booked with
  | nothing pool held objects =>
    rw [pool] at running ⊢
    rw [objects, held, counted running]
  | reused object rest open_ idle pool held objects =>
    rw [pool, objects, held, counted open_, idle]
    simp only [List.length_cons]
    omega
  | created open_ idle room pool held objects =>
    rw [pool, objects, held, counted open_, List.length_cons]
    simp only
    omega
  | givenBack object index open_ lease pool held objects =>
    have fewer := (eraseIdx_perm lease).length_eq
    rw [List.length_cons] at fewer
    rw [pool, objects, held, counted open_]
    simp only [List.length_append, List.length_singleton]
    omega
  | dropped index ended pool held objects =>
    rw [pool, ended] at running
    cases running
  | ended pool held objects =>
    rw [pool] at running
    cases running

section Steps

variable {runtime : PooledRuntime} (supervised : Supervised runtime)

include supervised

theorem Supervised.acquire (permitted : Permitted runtime .acquire) :
    Guarded runtime.acquire.1 ∧ Lasting runtime runtime.acquire.1 := by
  have same := supervised.guarded.of_same rfl rfl fun object mem => mem
  rw [PooledRuntime.acquire]
  split
  · exact same
  rename_i proceeds
  split
  · exact same
  rename_i open_
  rw [Bool.not_eq_true] at open_
  split
  · rename_i object rest idle
    have running : runtime.manager.isShutdown = false := by
      by_contra ended
      rw [Bool.not_eq_false] at ended
      rcases permitted ended with closed | empty
      · rw [open_] at closed
        cases closed
      · rw [idle] at empty
        cases empty
    have used : object ∈ runtime.held ++ runtime.pool.idle := by simp [idle]
    refine supervised.guarded.of_used (·.setState .busy) running used
      (fun _ => rfl) (fun _ => ConnectionState.noConfusion) rfl rfl ?_
    intro other mem
    simpa [lease, held, idle, or_assoc, or_left_comm] using mem
  rename_i idle
  cases ended : runtime.manager.isShutdown with
  | true => simpa [createConnection, ended] using same
  | false =>
    have room : runtime.pool.activeCount < runtime.pool.maxConnections := by
      simpa [canProceed, open_, idle] using proceeds
    rw [supervised.accounted.activeCount_eq open_, ← length_held] at room
    have counted := supervised.counted open_
    rw [idle, List.length_nil, Nat.add_zero] at counted
    refine supervised.guarded.of_created ?_ ended ?_ ?_ ?_
    · have limited := supervised.limited
      omega
    · simp [createConnection, ended, lease]
    · simp [createConnection, ended, lease, modifyObject, modify_concat_length, Connection.setState]
    · intro other mem
      simpa [createConnection, ended, lease, held, idle] using mem

theorem Supervised.resetLease {index : Nat} (permitted : Permitted runtime (.resetLease index)) :
    Guarded (runtime.resetLease index) ∧ Lasting runtime (runtime.resetLease index) := by
  have held := held_resetLease runtime index
  rw [PooledRuntime.resetLease] at held ⊢
  split
  · rename_i object found
    have used : object ∈ runtime.held ++ runtime.pool.idle := List.mem_append_left _
      (List.mem_map.mpr ⟨_, List.mem_of_getElem? found, rfl⟩)
    rw [found] at held
    refine supervised.guarded.of_used Connection.resetForPool permitted used
      (fun _ => rfl) (fun _ => ConnectionState.noConfusion) rfl rfl ?_
    intro other mem
    rwa [held] at mem
  · exact supervised.guarded.of_same rfl rfl fun object mem => mem

theorem Supervised.releaseLease {index : Nat}
    (permitted : Permitted runtime (.releaseLease index)) :
    Guarded (runtime.releaseLease index) ∧ Lasting runtime (runtime.releaseLease index) := by
  rw [PooledRuntime.releaseLease]
  split
  · rename_i object found
    have lease : runtime.held[index]? = some object := by simp [held, found]
    have moved := eraseIdx_perm lease
    have rest : { runtime.release object with
        leases := runtime.leases.eraseIdx index }.held = runtime.held.eraseIdx index :=
      (List.eraseIdx_map ..).symm
    cases ended : runtime.pool.isShutdown with
    | false =>
      have running := permitted.resolve_right (by simp [ended])
      have used : object ∈ runtime.held ++ runtime.pool.idle :=
        List.mem_append_left _ (List.mem_of_getElem? lease)
      refine supervised.guarded.of_used (·.setState .idle) running used
        (fun _ => rfl) (fun _ => ConnectionState.noConfusion) ?_ ?_ ?_
      · simp [release, ended]
      · simp [release, ended, modifyObject]
      intro other mem
      rw [rest] at mem
      simp only [release, ended] at mem
      rw [List.mem_append, moved.mem_iff]
      simp only [Bool.false_eq_true, if_false, List.mem_append, List.mem_singleton] at mem
      rcases mem with other_lease | older | rfl
      · exact Or.inl (List.mem_cons_of_mem _ other_lease)
      · exact Or.inr older
      · exact Or.inl List.mem_cons_self
    | true =>
      have empty := supervised.accounted.idle_empty ended
      have books := sameBooks_closeObject runtime object
      have closing : runtime.release object = runtime.closeObject object := by
        rw [release, ended]
        rfl
      rw [closing] at rest ⊢
      obtain ⟨kept, closed⟩ := supervised.guarded.registered.closeObject object
      refine supervised.guarded.of_closed [object] (kept.of_eq rfl rfl)
        (isShutdown_closeObject runtime object) closed ?_
      intro other mem
      rw [rest] at mem
      simp only [books.pool, empty, List.append_nil] at mem
      have distinct := supervised.accounted.distinct
      rw [empty, List.append_nil, moved.nodup_iff, List.nodup_cons] at distinct
      refine ⟨List.mem_append_left _ (List.mem_of_mem_eraseIdx mem), ?_⟩
      intro same
      rw [List.mem_singleton] at same
      exact distinct.1 (same ▸ mem)
  · exact supervised.guarded.of_same rfl rfl fun object mem => mem

theorem Supervised.shutdownPool :
    Guarded runtime.shutdownPool ∧ Lasting runtime runtime.shutdownPool := by
  have registered : Registered
      { runtime with pool := { runtime.pool with isShutdown := true } } :=
    supervised.guarded.registered.of_eq rfl rfl
  obtain ⟨kept, objects⟩ := registered.closeObjects runtime.pool.idle
  have books := sameBooks_foldl { runtime with pool := { runtime.pool with isShutdown := true } }
    sameBooks_closeObject runtime.pool.idle
  refine supervised.guarded.of_closed runtime.pool.idle (kept.of_eq rfl rfl)
    (isShutdown_closeObjects _ runtime.pool.idle) objects ?_
  intro object mem
  have leased : object ∈ runtime.held := by
    have same : runtime.shutdownPool.held = runtime.held := congrArg (List.map _) books.leases
    have empty : runtime.shutdownPool.pool.idle = [] := rfl
    rwa [same, empty, List.append_nil] at mem
  refine ⟨List.mem_append_left _ leased, fun idle => ?_⟩
  exact (List.disjoint_of_nodup_append supervised.accounted.distinct) leased idle

theorem Supervised.step {event : LeaseEvent} (permitted : Permitted runtime event) :
    Supervised (runtime.step event) ∧ Lasting runtime (runtime.step event) := by
  have booked := booked_step runtime event
  have kept : Guarded (runtime.step event) ∧ Lasting runtime (runtime.step event) := by
    cases event with
    | acquire => exact supervised.acquire permitted
    | resetLease index => exact supervised.resetLease permitted
    | releaseLease index => exact supervised.releaseLease permitted
    | shutdownPool => exact supervised.shutdownPool
    | shutdownManager => exact supervised.guarded.shutdownManager
  exact ⟨⟨supervised.accounted.of_booked booked, kept.1, booked.maxConnections ▸ supervised.limited,
    counted_of_booked supervised.counted booked⟩, kept.2⟩

end Steps

theorem Supervised.run {runtime : PooledRuntime}
    (supervised : Supervised runtime) {events : List LeaseEvent}
    (permitted : GuardedRuns.Along PooledRuntime.step Permitted runtime events) :
    Supervised (GuardedRuns.run PooledRuntime.step runtime events) ∧
      Lasting runtime (GuardedRuns.run PooledRuntime.step runtime events) := by
  induction events generalizing runtime with
  | nil => exact ⟨supervised, .refl runtime⟩
  | cons event events ih =>
    obtain ⟨next, lasting⟩ := supervised.step permitted.1
    obtain ⟨last, later⟩ := ih next permitted.2
    exact ⟨last, lasting.trans later⟩

/-- The pool closes a connection only when the manager has been shut down,
which cancels the tokens. -/
def CancelsFirst (runtime : PooledRuntime) : LeaseEvent → Prop
  | .releaseLease _ => runtime.pool.isShutdown = true → runtime.manager.isShutdown = true
  | .shutdownPool => runtime.pool.idle ≠ [] → runtime.manager.isShutdown = true
  | _ => True

structure Cancelled (runtime : PooledRuntime) : Prop where
  forgotten : runtime.manager.isShutdown = true → runtime.manager.connections = ∅
  cancelled : ∀ connection ∈ runtime.objects, connection.state = .closed →
    connection.cancelToken.cancelled = true

theorem mem_of_mem_modify {Item : Type*} {items : List Item} {place : Nat}
    {change : Item → Item} {item : Item} (mem : item ∈ items.modify place change) :
    item ∈ items ∨ ∃ old, item = change old := by
  obtain ⟨here, found⟩ := List.mem_iff_getElem?.mp mem
  rw [List.getElem?_modify, Option.map_eq_map, Option.map_eq_some_iff] at found
  obtain ⟨old, oldFound, rfl⟩ := found
  split
  · exact Or.inr ⟨old, rfl⟩
  · exact Or.inl (List.mem_of_getElem? oldFound)

section Cancelled

variable {runtime : PooledRuntime} (cancelled : Cancelled runtime)

include cancelled

theorem Cancelled.of_modified {after : PooledRuntime} {object : Nat}
    {change : Connection → Connection} (opened : ∀ old, (change old).state ≠ .closed)
    (manager : after.manager = runtime.manager)
    (objects : after.objects = runtime.objects.modify object change) : Cancelled after := by
  refine ⟨manager ▸ cancelled.forgotten, fun connection mem closed => ?_⟩
  rw [objects] at mem
  rcases mem_of_mem_modify mem with older | ⟨old, rfl⟩
  · exact cancelled.cancelled connection older closed
  · exact absurd closed (opened old)

theorem Cancelled.of_same {after : PooledRuntime} (manager : after.manager = runtime.manager)
    (objects : after.objects = runtime.objects) : Cancelled after :=
  ⟨manager ▸ cancelled.forgotten, objects ▸ cancelled.cancelled⟩

theorem Cancelled.closeObjects (ended : runtime.manager.isShutdown = true) (objects : List Nat) :
    objects.foldl PooledRuntime.closeObject runtime = runtime := by
  have unknown (object : Nat) : runtime.closeObject object = runtime := by
    rw [closeObject]
    split
    · rfl
    · rw [closeConnection, cancelled.forgotten ended]
      rfl
  induction objects with
  | nil => rfl
  | cons object objects ih => rw [List.foldl_cons, unknown, ih]

theorem Cancelled.acquire : Cancelled runtime.acquire.1 := by
  rw [PooledRuntime.acquire]
  split
  · exact cancelled
  split
  · exact cancelled
  split
  · exact cancelled.of_modified (fun _ => ConnectionState.noConfusion) rfl rfl
  cases ended : runtime.manager.isShutdown with
  | true => simpa [createConnection, ended] using cancelled
  | false =>
    simp only [createConnection, ended, Bool.false_eq_true, if_false]
    refine ⟨fun shut => ?_, fun connection mem closed => ?_⟩
    · cases shut
    · simp only [lease, modifyObject, modify_concat_length, List.mem_append,
        List.mem_singleton] at mem
      rcases mem with older | rfl
      · exact cancelled.cancelled connection older closed
      · cases closed

theorem Cancelled.releaseLease {index : Nat} (first : CancelsFirst runtime (.releaseLease index)) :
    Cancelled (runtime.releaseLease index) := by
  rw [PooledRuntime.releaseLease]
  split
  · rename_i object found
    cases ended : runtime.pool.isShutdown with
    | false =>
      rw [release, if_neg (by simp [ended])]
      exact cancelled.of_modified (fun _ => ConnectionState.noConfusion) rfl rfl
    | true =>
      have same := cancelled.closeObjects (first ended) [object]
      rw [List.foldl_cons, List.foldl_nil] at same
      rw [release, if_pos ended, same]
      exact cancelled.of_same rfl rfl
  · exact cancelled

theorem Cancelled.shutdownPool (first : CancelsFirst runtime .shutdownPool) :
    Cancelled runtime.shutdownPool := by
  have shut : Cancelled { runtime with pool := { runtime.pool with isShutdown := true } } :=
    cancelled.of_same rfl rfl
  by_cases empty : runtime.pool.idle = []
  · apply cancelled.of_same <;> simp [PooledRuntime.shutdownPool, empty]
  · have same := shut.closeObjects (first empty) runtime.pool.idle
    rw [PooledRuntime.shutdownPool, same]
    exact cancelled.of_same rfl rfl

theorem Cancelled.shutdownManager : Cancelled runtime.shutdownManager := by
  refine ⟨fun _ => rfl, fun connection mem closed => ?_⟩
  obtain ⟨place, found⟩ := List.mem_iff_getElem?.mp mem
  rw [getElem?_shutdownManager, Option.map_eq_some_iff] at found
  obtain ⟨old, oldFound, rfl⟩ := found
  by_cases listed : place ∈ runtime.manager.connections.entries.map (·.2)
  · simp only [if_pos listed]
    rfl
  · simp only [if_neg listed] at closed ⊢
    exact cancelled.cancelled old (List.mem_of_getElem? oldFound) closed

theorem Cancelled.step {event : LeaseEvent} (first : CancelsFirst runtime event) :
    Cancelled (runtime.step event) := by
  cases event with
  | acquire => exact cancelled.acquire
  | resetLease index =>
    rw [PooledRuntime.step, PooledRuntime.resetLease]
    split
    · exact cancelled.of_modified (fun _ => ConnectionState.noConfusion) rfl rfl
    · exact cancelled
  | releaseLease index => exact cancelled.releaseLease first
  | shutdownPool => exact cancelled.shutdownPool first
  | shutdownManager => exact cancelled.shutdownManager

end Cancelled
/-- In the permitted runs closed connections stay closed and cancelled, and all
are closed in the end.  They are cancelled unless the pool has closed one
before the manager. -/
theorem closed_connections_stay_closed (maxConnections : Nat)
    (limited : maxConnections ≤ 2 ^ 32) (events later : List LeaseEvent)
    (permitted : GuardedRuns.Along step Permitted (start maxConnections) (events ++ later)) :
    Lasting (after maxConnections events) (after maxConnections (events ++ later)) ∧
      (GuardedRuns.Along step CancelsFirst (start maxConnections) events →
        ∀ connection ∈ (after maxConnections events).objects,
          connection.state = .closed → connection.cancelToken.cancelled = true) ∧
      ((after maxConnections (events ++ later)).pool.isShutdown = true →
        (after maxConnections (events ++ later)).manager.isShutdown = true →
        (after maxConnections (events ++ later)).leases = [] →
        ∀ connection ∈ (after maxConnections (events ++ later)).objects,
          connection.state = .closed) := by
  obtain ⟨first, second⟩ := permitted.append
  obtain ⟨middle, -⟩ := (supervised_start limited).run first
  obtain ⟨last, lasting⟩ := middle.run second
  have split : after maxConnections (events ++ later) = GuardedRuns.run step
      (after maxConnections events) later := GuardedRuns.run_append events later
  rw [split]
  refine ⟨lasting, fun first => ?_, fun _ ended _ => last.guarded.all_closed ended⟩
  have cancelled : Cancelled (start maxConnections) := by
    constructor
    · exact fun _ => rfl
    · exact fun _ member => absurd member List.not_mem_nil
  exact (first.run_invariant (fun _ _ holds guard => holds.step guard) cancelled).cancelled

/-- A lease is given back after the shutdown of the pool and before that of the
manager; the manager is shut down before the pool. -/
theorem closed_connections_stay_closed_late :
    Lasting (after 1 [.acquire, .shutdownPool, .resetLease 0, .releaseLease 0])
        (after 1 ([.acquire, .shutdownPool, .resetLease 0, .releaseLease 0] ++
          [.shutdownManager])) ∧
      (∀ connection ∈ (after 1 ([.acquire, .shutdownPool, .resetLease 0,
          .releaseLease 0] ++ [.shutdownManager])).objects, connection.state = .closed) ∧
      ∀ connection ∈ (after 1 [.acquire, .resetLease 0, .releaseLease 0, .shutdownManager,
          .shutdownPool]).objects,
        connection.state = .closed → connection.cancelToken.cancelled = true := by
  have late := closed_connections_stay_closed 1 (by decide) [.acquire, .shutdownPool, .resetLease 0,
    .releaseLease 0] [.shutdownManager] ⟨by decide, by decide, by decide, by decide, by decide,
    trivial⟩
  have ordered := closed_connections_stay_closed 1 (by decide) [.acquire, .resetLease 0,
    .releaseLease 0, .shutdownManager, .shutdownPool] [] ⟨by decide, by decide, by decide,
    by decide, by decide, trivial⟩
  refine ⟨late.1, late.2.2 rfl rfl rfl, ordered.2.1 ⟨trivial, trivial, nofun, trivial, ?_⟩⟩
  exact ⟨fun _ => rfl, trivial⟩

/-- A lease is given back after both shutdowns: its connection was closed and
cancelled, and is open in the end.  A connection that the pool closes before
the manager is never cancelled. -/
theorem closed_connection_opened :
    (after 1 [.acquire, .shutdownPool, .shutdownManager]).objects.map
        (fun connection => (connection.state, connection.cancelToken)) = [(.closed, ⟨true, none⟩)] ∧
    (after 1 [.acquire, .shutdownPool, .shutdownManager, .resetLease 0,
        .releaseLease 0]).objects.map
        (fun connection => (connection.state, connection.cancelToken)) = [(.open, ⟨false, none⟩)] ∧
    (after 1 [.acquire, .shutdownPool, .shutdownManager, .resetLease 0,
      .releaseLease 0]).leases = [] ∧
    (after 1 [.acquire, .resetLease 0, .releaseLease 0, .shutdownPool,
        .shutdownManager]).objects.map
        (fun connection => (connection.state, connection.cancelToken)) =
      [(.closed, ⟨false, none⟩)] := by decide

end PooledRuntime

end KlyroDB
