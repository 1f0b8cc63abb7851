import KlyroDB.BufferPoolRefinement

/-!
# Flushing after failed fetches

A fetch whose write-back fails leaves the victim's frame dirty and without an
entry in the page table, where `flush_page` and `flush_all` do not see it.
-/

namespace KlyroDB

namespace PoolRun

section Failures

variable {run : PoolRun}

theorem Sequential.step (sequential : Sequential run) (event : PoolEvent)
    (notAllocation : event ≠ .allocatePage) : Sequential (run.step event).2 := by
  cases event with
  | fetchPage pageId =>
    have outcome := sequential.fetchPage pageId
    unfold PoolRun.step
    dsimp only
    generalize run.pool.fetchPage pageId = result at outcome
    obtain ⟨answer, after⟩ := result
    cases outcome with
    | ok kept keeps | exhausted kept keeps | failed disk kept => exact kept
  | allocatePage => exact absurd rfl notAllocation
  | flushPage pageId => exact (sequential.flushPage pageId).sequential
  | flushAll enumeration => exact (sequential.flushAll enumeration).sequential
  | mutate index offset bytes =>
    exact (sequential.mutate index offset bytes).sequential
  | drop index => exact (sequential.drop index).sequential

theorem Sequential.after_run (events : List PoolEvent) :
    ∀ {start : PoolRun}, Sequential start →
      (∀ event ∈ events, event ≠ .allocatePage) → Sequential (PoolRun.run start events) := by
  induction events with
  | nil =>
    intro start sequential _
    exact sequential
  | cons event events ih =>
    intro start sequential notAllocation
    obtain ⟨first, rest⟩ := List.forall_mem_cons.mp notAllocation
    exact ih (sequential.step event first) rest

/-- Two pages of zeros; the second access to the disk fails. -/
def faultyDisk : DiskManager :=
  ⟨36, le_rfl, List.replicate 72 0, 2, [], true, [none, some 0]⟩

end Failures

end PoolRun

end KlyroDB
