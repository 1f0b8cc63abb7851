import KlyroDB.GuardedRuns
import Mathlib.Data.List.Nodup
import Mathlib.Logic.Function.Basic

/-!
# The worker pool

`runtime/worker_pool.cpp` and `runtime/worker.cpp` after `start`, cut into the
sections under the pool's mutex and the loads and stores of the running flags.
-/

namespace KlyroDB

/-- Where a worker is in its loop; a task is executed under the number of its
take. -/
inductive WorkerPhase
  | atLoop
  | waiting
  | executing (number : Nat)
  | declined
  | exited
  deriving DecidableEq, Repr

/-- Where the one call of `shutdown` is. -/
inductive ShutdownPhase
  | notCalled
  | stopping (worker : Nat)
  | joining (worker : Nat)
  | returned
  deriving DecidableEq, Repr

/-- The pool with the submissions that returned true, the tasks taken by
workers, both in order, and the numbers of the takes that were executed. -/
structure WorkerPool (Task : Type) where
  numWorkers : Nat
  maxQueueSize : Nat
  tasks : List Task := []
  isShutdown : Bool := false
  running : Nat → Bool := fun _ => true
  phase : Nat → WorkerPhase := fun _ => .atLoop
  caller : ShutdownPhase := .notCalled
  accepted : List Task := []
  taken : List Task := []
  executed : List Nat := []

/-- A section of `submit`, the next step of a worker, whose task may have been
cancelled, or the next step of `shutdown`. -/
inductive WorkerPoolEvent (Task : Type)
  | submit (task : Task)
  | worker (index : Nat) (cancelled : Bool)
  | shutdown

namespace WorkerPool

variable {Task : Type}

def submit (pool : WorkerPool Task) (task : Task) : WorkerPool Task :=
  if pool.isShutdown ∨ pool.maxQueueSize ≤ pool.tasks.length then pool
  else { pool with tasks := pool.tasks ++ [task], accepted := pool.accepted ++ [task] }

def setPhase (pool : WorkerPool Task) (worker : Nat) (phase : WorkerPhase) : WorkerPool Task :=
  { pool with phase := Function.update pool.phase worker phase }

/-- `Worker::loop` and `wait_for_task`. -/
def workerStep (pool : WorkerPool Task) (worker : Nat) (cancelled : Bool) : WorkerPool Task :=
  match pool.phase worker with
  | .atLoop => pool.setPhase worker (if pool.running worker then .waiting else .exited)
  | .waiting =>
      match pool.tasks with
      | [] => if pool.isShutdown then pool.setPhase worker .declined else pool
      | task :: rest =>
          { pool.setPhase worker (.executing pool.taken.length) with
            tasks := rest
            taken := pool.taken ++ [task] }
  | .executing number =>
      { pool.setPhase worker .atLoop with
        executed := if cancelled then pool.executed else pool.executed ++ [number] }
  | .declined => pool.setPhase worker (if pool.running worker then .atLoop else .exited)
  | .exited => pool

/-- `shutdown` and `Worker::stop`, which joins a worker that was running. -/
def shutdownStep (pool : WorkerPool Task) : WorkerPool Task :=
  match pool.caller with
  | .notCalled => { pool with isShutdown := true, caller := .stopping 0 }
  | .stopping worker =>
      if worker < pool.numWorkers then
        { pool with
          running := Function.update pool.running worker false
          caller := if pool.running worker then .joining worker else .stopping (worker + 1) }
      else { pool with caller := .returned }
  | .joining worker =>
      if pool.phase worker = .exited then { pool with caller := .stopping (worker + 1) } else pool
  | .returned => pool

def step (pool : WorkerPool Task) : WorkerPoolEvent Task → WorkerPool Task
  | .submit task => pool.submit task
  | .worker index cancelled =>
      if index < pool.numWorkers then pool.workerStep index cancelled else pool
  | .shutdown => pool.shutdownStep

/-- The queue is empty when `shutdown` stops the last worker, or when it starts
in a pool without workers. -/
def StopsDrained (pool : WorkerPool Task) : WorkerPoolEvent Task → Prop
  | .shutdown => (pool.caller = .notCalled → pool.numWorkers = 0 → pool.tasks = []) ∧ ∀ worker,
      pool.caller = .stopping worker → worker + 1 = pool.numWorkers → pool.tasks = []
  | _ => True

def progress (pool : WorkerPool Task) : Nat × Nat :=
  match pool.caller with
  | .notCalled => (0, 0)
  | .stopping worker => (worker, worker)
  | .joining worker => (worker, worker + 1)
  | .returned => (pool.numWorkers, pool.numWorkers)

/-- What every run keeps, and an empty queue behind the last worker in the runs
that stop it so. -/
structure Invariant (stopsDrained : Prop) (pool : WorkerPool Task) : Prop where
  bounded : pool.tasks.length ≤ pool.maxQueueSize
  inOrder : pool.taken ++ pool.tasks = pool.accepted
  once : pool.executed.Nodup
  executed : ∀ number ∈ pool.executed, number < pool.taken.length
  executing : ∀ worker number, pool.phase worker = .executing number →
    number < pool.taken.length ∧ number ∉ pool.executed
  apart : ∀ worker other number, pool.phase worker = .executing number →
    pool.phase other = .executing number → worker = other
  flagged : pool.caller ≠ .notCalled → pool.isShutdown = true
  joined : ∀ worker < pool.progress.1, pool.phase worker = .exited
  unstopped : pool.caller ≠ .returned →
    ∀ worker, pool.progress.2 ≤ worker → pool.running worker = true
  drained : stopsDrained → pool.caller ≠ .notCalled → pool.numWorkers ≤ pool.progress.2 →
    pool.tasks = []

namespace Invariant

variable {stopsDrained : Prop} {pool : WorkerPool Task} (invariant : Invariant stopsDrained pool)

include invariant

theorem submit (task : Task) : Invariant stopsDrained (pool.submit task) := by
  unfold WorkerPool.submit
  split_ifs with refused
  · exact invariant
  · obtain ⟨open_, room⟩ := not_or.mp refused
    have early : ¬pool.caller ≠ .notCalled := fun called => open_ (invariant.flagged called)
    refine { invariant with
      bounded := by simpa using Nat.succ_le_of_lt (Nat.lt_of_not_le room)
      inOrder := by rw [← List.append_assoc, invariant.inOrder]
      drained := fun _ called => absurd called early }

/-- A step to a phase without a task or with a task of its own. -/
theorem setPhase {worker : Nat} {phase : WorkerPhase} (own : ∀ number, phase = .executing number →
      number < pool.taken.length ∧ number ∉ pool.executed ∧
        ∀ other, pool.phase other ≠ .executing number)
    (leaves : pool.phase worker ≠ .exited) :
    Invariant stopsDrained (pool.setPhase worker phase) := by
  have executing := invariant.executing
  have apart := invariant.apart
  refine { invariant with
    executing := fun other number here => ?_
    apart := fun first second number here there => ?_
    joined := fun other before => ?_ }
  · simp only [WorkerPool.setPhase, Function.update_apply] at here ⊢
    grind
  · simp only [WorkerPool.setPhase, Function.update_apply] at here there
    grind
  · have exited := invariant.joined other before
    simp only [WorkerPool.setPhase, Function.update_apply]
    grind

theorem take {worker : Nat} (waits : pool.phase worker = .waiting) {task : Task}
    {rest : List Task} (queue : pool.tasks = task :: rest) :
    Invariant stopsDrained { pool.setPhase worker (.executing pool.taken.length) with
      tasks := rest, taken := pool.taken ++ [task] } := by
  have length : (pool.taken ++ [task]).length = pool.taken.length + 1 := by simp
  have bounded := invariant.bounded
  have inOrder := invariant.inOrder
  have executed := invariant.executed
  have executing := invariant.executing
  rw [queue] at bounded inOrder
  have taken : Invariant stopsDrained
      { pool with tasks := rest, taken := pool.taken ++ [task] } := {
    invariant with
    bounded := Nat.le_of_succ_le bounded
    inOrder := (List.append_assoc ..).trans inOrder
    executed := fun number mem => length ▸ Nat.lt_succ_of_lt (executed number mem)
    executing := fun other number here => by grind
    drained := fun stops called stopped => by
      cases queue.symm.trans (invariant.drained stops called stopped) }
  apply taken.setPhase _ (by simp [waits])
  rintro _ ⟨⟩
  grind

theorem finish {worker number : Nat} (holds : pool.phase worker = .executing number)
    (cancelled : Bool) :
    Invariant stopsDrained { pool.setPhase worker .atLoop with
      executed := if cancelled then pool.executed else pool.executed ++ [number] } := by
  have idle : Invariant stopsDrained (pool.setPhase worker .atLoop) :=
    invariant.setPhase (by simp) (by simp [holds])
  obtain ⟨below, fresh⟩ := invariant.executing worker number holds
  have apart := invariant.apart
  cases cancelled with
  | true => exact idle
  | false =>
    refine { idle with
      once := List.Nodup.append invariant.once (List.nodup_singleton number) (by simpa using fresh)
      executed := fun other mem => ?_
      executing := fun other held here => ?_ }
    · rcases List.mem_append.mp mem with before | last
      · exact invariant.executed other before
      · exact List.mem_singleton.mp last ▸ below
    · obtain ⟨earlier, unexecuted⟩ := idle.executing other held here
      refine ⟨earlier, fun mem => ?_⟩
      simp only [WorkerPool.setPhase, Function.update_apply] at here
      rcases List.mem_append.mp mem with before | last
      · exact unexecuted before
      · grind

theorem workerStep (worker : Nat) (cancelled : Bool) :
    Invariant stopsDrained (pool.workerStep worker cancelled) := by
  unfold WorkerPool.workerStep
  cases phase : pool.phase worker with
  | atLoop | declined => exact invariant.setPhase (by split <;> simp) (by simp [phase])
  | waiting =>
    cases queue : pool.tasks with
    | nil =>
      dsimp only
      split_ifs
      · exact invariant.setPhase (by simp) (by simp [phase])
      · exact invariant
    | cons task rest => exact invariant.take phase queue
  | executing number => exact invariant.finish phase cancelled
  | exited => exact invariant

theorem shutdownStep (drained : stopsDrained → pool.StopsDrained .shutdown) :
    Invariant stopsDrained pool.shutdownStep := by
  have joined := invariant.joined
  have unstopped := invariant.unstopped
  have empty := invariant.drained
  unfold WorkerPool.shutdownStep
  cases caller : pool.caller with
  | notCalled =>
    simp only [progress, caller] at unstopped
    exact { invariant with
      flagged := fun _ => rfl
      joined := fun worker before => absurd before (Nat.not_lt_zero worker)
      unstopped := fun _ worker _ => unstopped (by simp) worker (Nat.zero_le worker)
      drained := fun stops _ all => (drained stops).1 caller (Nat.le_zero.mp all) }
  | stopping worker =>
    have flagged := invariant.flagged (by simp [caller])
    simp only [progress, caller] at joined unstopped empty
    dsimp only
    split_ifs with more runs
    · refine { invariant with
        flagged := fun _ => flagged
        joined := joined
        unstopped := fun _ other above => ?_
        drained := fun stops _ all => (drained stops).2 worker caller (Nat.le_antisymm more all) }
      have ne : other ≠ worker := Nat.ne_of_gt above
      exact (Function.update_of_ne ne ..).trans (unstopped (by simp) other (Nat.le_of_lt above))
    · exact absurd (unstopped (by simp) worker (Nat.le_refl worker)) runs
    · exact { invariant with
        flagged := fun _ => flagged
        joined := fun other before => joined other (Nat.lt_of_lt_of_le before (Nat.not_lt.mp more))
        unstopped := fun unreturned => absurd rfl unreturned
        drained := fun stops _ _ => empty stops (by simp) (Nat.not_lt.mp more) }
  | joining worker =>
    have flagged := invariant.flagged (by simp [caller])
    simp only [progress, caller] at joined unstopped empty
    dsimp only
    split_ifs with exited
    · refine { invariant with
        flagged := fun _ => flagged
        joined := fun other before => ?_
        unstopped := fun _ => unstopped (by simp)
        drained := fun stops _ => empty stops (by simp) }
      rcases Nat.lt_succ_iff_lt_or_eq.mp before with earlier | rfl
      · exact joined other earlier
      · exact exited
    · exact invariant
  | returned => exact invariant

theorem step {event : WorkerPoolEvent Task} (drained : stopsDrained → pool.StopsDrained event) :
    Invariant stopsDrained (pool.step event) := by
  cases event with
  | submit task => exact invariant.submit task
  | worker index cancelled =>
    dsimp only [WorkerPool.step]
    split_ifs
    · exact invariant.workerStep index cancelled
    · exact invariant
  | shutdown => exact invariant.shutdownStep drained

end Invariant

def started (Task : Type) (numWorkers maxQueueSize : Nat) : WorkerPool Task where
  numWorkers := numWorkers
  maxQueueSize := maxQueueSize

theorem invariant_started (stopsDrained : Prop) (numWorkers maxQueueSize : Nat) :
    Invariant stopsDrained (started Task numWorkers maxQueueSize) := by
  constructor <;> simp [started, progress]

/-- What every run shows: a bounded queue, tasks taken in the order of their
submission and executed at most once, and workers that have left when
`shutdown` has returned. -/
structure Sound (pool : WorkerPool Task) : Prop where
  bounded : pool.tasks.length ≤ pool.maxQueueSize
  inOrder : pool.taken <+: pool.accepted
  once : pool.executed.Nodup ∧ ∀ number ∈ pool.executed, number < pool.taken.length
  joined : pool.caller = .returned → ∀ worker < pool.numWorkers, pool.phase worker = .exited

/-- Every state of every run is sound, and nothing is left when `shutdown` has
returned in a run that stops its last worker with an empty queue. -/
theorem worker_pool_sound (numWorkers maxQueueSize : Nat) (events : List (WorkerPoolEvent Task)) :
    let pool := GuardedRuns.run step (started Task numWorkers maxQueueSize) events
    Sound pool ∧
      (GuardedRuns.Along step StopsDrained (started Task numWorkers maxQueueSize) events →
        pool.caller = .returned → pool.taken = pool.accepted) := by
  intro pool
  constructor
  · have invariant : Invariant False pool := List.foldlRecOn events step
      (invariant_started False numWorkers maxQueueSize) fun _ holds _ _ => holds.step False.elim
    refine ⟨invariant.bounded, ⟨pool.tasks, invariant.inOrder⟩,
      ⟨invariant.once, invariant.executed⟩, fun returned => ?_⟩
    have joined := invariant.joined
    simpa only [progress, returned] using joined
  · intro drained returned
    have invariant : Invariant True pool := drained.run_invariant
      (fun _ _ holds stops => holds.step fun _ => stops) (invariant_started True _ _)
    have empty := invariant.drained trivial (by simp [returned]) (by simp [progress, returned])
    have inOrder := invariant.inOrder
    rwa [empty, List.append_nil] at inOrder

/-- One task, taken and executed before the only worker is stopped. -/
theorem worker_pool_sound_drained :
    let pool := GuardedRuns.run step (started Nat 1 1) [.submit 7, .worker 0 false,
      .worker 0 false, .worker 0 false, .shutdown, .shutdown, .worker 0 false, .shutdown, .shutdown]
    Sound pool ∧ pool.taken = pool.accepted := by
  have sound := worker_pool_sound 1 1 [.submit 7, .worker 0 false, .worker 0 false,
    .worker 0 false, .shutdown, .shutdown, .worker 0 false, .shutdown, .shutdown]
  refine ⟨sound.1, sound.2 ⟨trivial, trivial, trivial, trivial, ⟨?_, ?_⟩, ⟨?_, ?_⟩, trivial,
    ⟨?_, ?_⟩, ⟨?_, ?_⟩, trivial⟩ (by decide)⟩
  all_goals simp [step, submit, workerStep, shutdownStep, setPhase, started]

/-- Two tasks are accepted; the worker is stopped while it executes the first
one, and the second one stays in the queue. -/
theorem accepted_task_dropped :
    let pool := GuardedRuns.run step (started Nat 1 2) [.submit 7, .submit 8, .worker 0 false,
      .worker 0 false, .shutdown, .shutdown, .worker 0 false, .worker 0 false, .shutdown, .shutdown]
    pool.caller = .returned ∧ pool.accepted = [7, 8] ∧ pool.taken = [7] ∧ pool.tasks = [8] := by
  decide

end WorkerPool

end KlyroDB
