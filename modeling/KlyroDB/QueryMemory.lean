import KlyroDB.GuardedRuns
import Mathlib.Data.List.Perm.Basic
import Mathlib.Tactic.Ring

/-!
# The memory account of a query

`runtime/memory_resource.hpp`: a 64-bit counter that may be carried past either
end, and next to it the blocks that are in use.
-/

namespace KlyroDB

structure QueryMemoryResource where
  limit : UInt64
  usage : UInt64 := 0

inductive AllocationResult
  | block
  | memoryLimitExceeded
  | upstreamFailed

namespace QueryMemoryResource

def resetUsage (resource : QueryMemoryResource) : QueryMemoryResource :=
  { resource with usage := 0 }

/-- `do_allocate`; `provided` says whether the upstream resource has the
memory. -/
def allocate (resource : QueryMemoryResource) (bytes : UInt64) (provided : Bool) :
    AllocationResult × QueryMemoryResource :=
  if resource.limit < resource.usage + bytes then (.memoryLimitExceeded, resource)
  else
    let reserved := { resource with usage := resource.usage + bytes }
    if provided then (.block, reserved)
    else (.upstreamFailed, { reserved with usage := reserved.usage - bytes })

def deallocate (resource : QueryMemoryResource) (bytes : UInt64) : QueryMemoryResource :=
  { resource with usage := resource.usage - bytes }

end QueryMemoryResource

inductive MemoryCall
  | allocate (bytes : UInt64) (provided : Bool)
  | deallocate (block : Nat)
  | resetUsage

/-- `live` are the sizes of the blocks in use. -/
structure MemoryRun where
  resource : QueryMemoryResource
  live : List UInt64 := []

namespace MemoryRun

def step (run : MemoryRun) : MemoryCall → MemoryRun
  | .allocate bytes provided =>
      match run.resource.allocate bytes provided with
      | (.block, resource) => { run with resource := resource, live := bytes :: run.live }
      | (_, resource) => { run with resource := resource }
  | .deallocate block =>
      match run.live[block]? with
      | none => run
      | some bytes =>
          { run with
            resource := run.resource.deallocate bytes
            live := run.live.eraseIdx block }
  | .resetUsage => { run with resource := run.resource.resetUsage }

def start (limit : UInt64) : MemoryRun where
  resource := { limit := limit }

def run (limit : UInt64) (calls : List MemoryCall) : MemoryRun :=
  GuardedRuns.run step (start limit) calls

def total (live : List UInt64) : Nat := (live.map UInt64.toNat).sum

/-- A request that is served does not carry the counter past 64 bits, and the
counter is reset when no block is in use. -/
def Permitted (run : MemoryRun) : MemoryCall → Prop
  | .allocate bytes provided =>
      provided = true → run.resource.usage.toNat + bytes.toNat < 2 ^ 64
  | .deallocate _ => True
  | .resetUsage => run.live = []

structure Accounted (limit : UInt64) (run : MemoryRun) : Prop where
  limit_eq : run.resource.limit = limit
  usage_eq : run.resource.usage.toNat = total run.live
  usage_le : run.resource.usage ≤ limit

theorem total_eraseIdx {live : List UInt64} {block : Nat} {bytes : UInt64}
    (found : live[block]? = some bytes) :
    bytes.toNat + total (live.eraseIdx block) = total live := by
  obtain ⟨inside, rfl⟩ := List.getElem?_eq_some_iff.mp found
  have moved := ((List.getElem_cons_eraseIdx_perm inside).map UInt64.toNat).sum_nat
  rwa [List.map_cons, List.sum_cons] at moved

theorem Accounted.step {limit : UInt64} {run : MemoryRun} (accounted : Accounted limit run)
    {call : MemoryCall} (permitted : run.Permitted call) : Accounted limit (run.step call) := by
  obtain ⟨limit_eq, usage_eq, usage_le⟩ := accounted
  cases call with
  | allocate bytes provided =>
    rw [MemoryRun.step, QueryMemoryResource.allocate]
    split_ifs with refused served
    · exact ⟨limit_eq, usage_eq, usage_le⟩
    · have small := permitted served
      rw [limit_eq] at refused
      refine ⟨limit_eq, ?_, UInt64.not_lt.mp refused⟩
      simp only [UInt64.toNat_add, Nat.mod_eq_of_lt small, total, List.map_cons, List.sum_cons]
      rw [usage_eq, total, Nat.add_comm]
    · exact ⟨limit_eq, by simpa using usage_eq, by simpa using usage_le⟩
  | deallocate block =>
    rw [MemoryRun.step]
    cases found : run.live[block]? with
    | none => exact ⟨limit_eq, usage_eq, usage_le⟩
    | some bytes =>
      have rest := total_eraseIdx found
      have counted : (run.resource.usage - bytes).toNat = total (run.live.eraseIdx block) := by
        rw [UInt64.toNat_sub_of_le _ _ (UInt64.le_iff_toNat_le.mpr (by omega))]
        omega
      refine ⟨limit_eq, counted, UInt64.le_iff_toNat_le.mpr ?_⟩
      have bound := UInt64.le_iff_toNat_le.mp usage_le
      dsimp only [QueryMemoryResource.deallocate]
      omega
  | resetUsage =>
    refine ⟨limit_eq, ?_, UInt64.zero_le⟩
    rw [show (run.step .resetUsage).live = [] from permitted]
    rfl

/-- Under that condition the counter stays within the limit and shows what is
in use. -/
theorem usage_right (limit : UInt64) (calls : List MemoryCall)
    (permitted : GuardedRuns.Along step Permitted (start limit) calls) :
    ∀ early, early <+: calls →
      (run limit early).resource.usage ≤ limit ∧
      (run limit early).resource.usage.toNat = total (run limit early).live := by
  rintro early ⟨later, rfl⟩
  have accounted : Accounted limit (run limit early) :=
    permitted.append.1.run_invariant (fun _ _ holds allowed => holds.step allowed)
      ⟨rfl, rfl, UInt64.zero_le⟩
  exact ⟨accounted.usage_le, accounted.usage_eq⟩

theorem usage_right_reused :
    (run 100 [.allocate 60 true, .allocate 50 true, .deallocate 0, .resetUsage,
        .allocate 70 true]).resource.usage ≤ 100 ∧
      (run 100 [.allocate 60 true, .allocate 50 true, .deallocate 0, .resetUsage,
        .allocate 70 true]).resource.usage.toNat = 70 :=
  usage_right 100 [.allocate 60 true, .allocate 50 true, .deallocate 0, .resetUsage,
    .allocate 70 true] ⟨fun _ => by decide, fun _ => by decide, trivial, rfl,
      fun _ => by decide, trivial⟩ _ (List.prefix_refl _)

/-- A block outlives the reset. -/
theorem usage_after_reset :
    ¬ (run 100 [.allocate 10 true, .resetUsage, .deallocate 0]).resource.usage ≤ 100 := by
  decide

end MemoryRun

end KlyroDB
