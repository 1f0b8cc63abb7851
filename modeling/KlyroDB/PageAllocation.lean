import KlyroDB.DiskPages
import KlyroDB.GuardedRuns

/-!
# Which pages are handed out

Page identifiers come from the stack of free pages or from a counter.  The
stack takes any identifier, also one that the counter has not reached.
-/

namespace KlyroDB

open DiskManager (emptyFile emptyPage)
open GuardedRuns

namespace DiskManager

theorem writePage_fields (disk : DiskManager) (page : Page) :
    (disk.writePage page).2.2.nextPageId = disk.nextPageId ∧
      (disk.writePage page).2.2.freePages = disk.freePages ∧
      (disk.writePage page).2.2.isOpen = disk.isOpen := by
  have same := disk.sameFile_nextFault
  unfold writePage
  generalize disk.nextFault = next at same ⊢
  obtain ⟨fault, after⟩ := next
  split
  · exact ⟨rfl, rfl, rfl⟩
  split
  · exact ⟨rfl, rfl, rfl⟩
  · cases fault with
    | some _ | none => exact ⟨same.nextPageId_eq, same.freePages_eq, same.isOpen_eq⟩

section

variable {disk : DiskManager}

theorem allocatePage_eq_counter (opened : disk.isOpen = true) (noFree : disk.freePages = []) :
    disk.allocatePage =
      match ({ disk with nextPageId := (disk.nextPageId + 1) % 2 ^ 64 } :
        DiskManager).writePage (emptyPage { disk with
          nextPageId := (disk.nextPageId + 1) % 2 ^ 64 } disk.nextPageId) with
      | (.error status, _, disk) => (.error status, disk)
      | (.ok (), _, after) => (.ok disk.nextPageId, after) := by
  rw [allocatePage, if_neg (by simp [opened])]
  split
  · rename_i free
    rw [noFree] at free
    cases free
  · rfl

theorem Ready.allocatePage_ok (ready : disk.Ready) (noFree : disk.freePages = [])
    (addressable : disk.Addressable disk.nextPageId) :
    disk.allocatePage.1 = .ok disk.nextPageId := by
  have room : DiskManager.Addressable { disk with
      nextPageId := (disk.nextPageId + 1) % 2 ^ 64 } disk.nextPageId :=
    addressable.congr rfl rfl
  have written := @writePage_eq { disk with
    nextPageId := (disk.nextPageId + 1) % 2 ^ 64 }
    (emptyPage { disk with
      nextPageId := (disk.nextPageId + 1) % 2 ^ 64 } disk.nextPageId)
    ready.faults_eq room
  rw [allocatePage_eq_counter ready.isOpen_eq noFree, written]

theorem allocatePage_counter (opened : disk.isOpen = true) (noFree : disk.freePages = []) :
    disk.allocatePage.2.nextPageId = (disk.nextPageId + 1) % 2 ^ 64 ∧
      disk.allocatePage.2.freePages = [] ∧
      disk.allocatePage.2.isOpen = true ∧
      ∀ pageId, disk.allocatePage.1 = .ok pageId → pageId = disk.nextPageId := by
  rw [allocatePage_eq_counter opened noFree]
  generalize grownEq : ({ disk with
    nextPageId := (disk.nextPageId + 1) % 2 ^ 64 } : DiskManager) = grown
  obtain ⟨next, free, open_⟩ := grown.writePage_fields (grown.emptyPage disk.nextPageId)
  generalize grown.writePage (grown.emptyPage disk.nextPageId) = result at next free open_ ⊢
  obtain ⟨status | done, stamped, after⟩ := result
  · dsimp only at next free open_ ⊢
    rw [next, free, open_, ← grownEq]
    exact ⟨rfl, noFree, opened, by simp⟩
  · dsimp only at next free open_ ⊢
    rw [next, free, open_, ← grownEq]
    exact ⟨rfl, noFree, opened, fun pageId same => (Except.ok.inj same).symm⟩

theorem allocatePage_free {pageId : Nat} {freePages : List Nat} (opened : disk.isOpen = true)
    (free : disk.freePages = pageId :: freePages) :
    disk.allocatePage = (.ok pageId, { disk with freePages := freePages }) := by
  rw [allocatePage, if_neg (by simp [opened]), free]

end

end DiskManager

inductive PageCall
  | allocatePage
  | deallocatePage (pageId : Nat)
  deriving DecidableEq, Repr

/-- The disk manager, with the pages that were handed out and not given
back. -/
structure PageAllocation where
  disk : DiskManager
  live : List Nat := []

namespace PageAllocation

def step (system : PageAllocation) : PageCall → PageAllocation
  | .allocatePage =>
      match system.disk.allocatePage with
      | (.ok pageId, disk) => ⟨disk, pageId :: system.live⟩
      | (.error _, disk) => ⟨disk, system.live⟩
  | .deallocatePage pageId =>
      match system.disk.deallocatePage pageId with
      | (.ok (), disk) => ⟨disk, system.live.filter (· ≠ pageId)⟩
      | (.error _, disk) => ⟨disk, system.live⟩

theorem disk_step_allocatePage (system : PageAllocation) :
    (system.step .allocatePage).disk = system.disk.allocatePage.2 := by
  rw [step]
  generalize system.disk.allocatePage = result
  obtain ⟨status | pageId, after⟩ := result
  · rfl
  · rfl

theorem disk_step_deallocatePage (system : PageAllocation) (pageId : Nat) :
    (system.step (.deallocatePage pageId)).disk = (system.disk.deallocatePage pageId).2 := by
  rw [step]
  generalize system.disk.deallocatePage pageId = result
  obtain ⟨status | done, after⟩ := result
  · rfl
  · rfl

/-- What the call hands out is neither page 0 nor in use. -/
def HandsOutFresh (system : PageAllocation) (call : PageCall) : Prop :=
  call = .allocatePage → ∀ pageId, system.disk.allocatePage.1 = .ok pageId → pageId ≠ 0 ∧ pageId ∉
    system.live

/-- No page is given back that the counter has not reached, and the counter is
not at its end. -/
def Sensible (system : PageAllocation) : PageCall → Prop
  | .allocatePage => system.disk.freePages = [] →
      0 < system.disk.nextPageId ∧ system.disk.nextPageId + 1 < 2 ^ 64
  | .deallocatePage pageId => PageID.isValid pageId = true →
      pageId ∉ system.disk.freePages → pageId < system.disk.nextPageId

structure Disjoint (system : PageAllocation) : Prop where
  isOpen_eq : system.disk.isOpen = true
  free_nodup : system.disk.freePages.Nodup
  free : ∀ pageId ∈ system.disk.freePages, pageId ≠ 0 ∧
    pageId < system.disk.nextPageId ∧ pageId ∉ system.live
  live : ∀ pageId ∈ system.live, pageId < system.disk.nextPageId

namespace Disjoint

variable {system : PageAllocation}

section

variable (disjoint : system.Disjoint)

include disjoint

theorem allocatePage (sensible : system.Sensible .allocatePage) :
    (system.step .allocatePage).Disjoint ∧ system.HandsOutFresh .allocatePage := by
  obtain ⟨opened, distinct, free, live⟩ := disjoint
  cases freePages : system.disk.freePages with
  | cons pageId rest =>
    have allocation := DiskManager.allocatePage_free opened freePages
    rw [freePages, List.nodup_cons] at distinct
    rw [freePages, List.forall_mem_cons] at free
    constructor
    · rw [step, allocation]
      refine ⟨opened, distinct.2, fun other mem => ?_, ?_⟩
      · obtain ⟨notZero, below, notLive⟩ := free.2 other mem
        refine ⟨notZero, below, ?_⟩
        rw [List.mem_cons, not_or]
        exact ⟨fun same => distinct.1 (same ▸ mem), notLive⟩
      · rw [List.forall_mem_cons]
        exact ⟨free.1.2.1, live⟩
    · intro _ other handedOut
      rw [allocation] at handedOut
      cases handedOut
      exact ⟨free.1.1, free.1.2.2⟩
  | nil =>
    obtain ⟨positive, noWrap⟩ := sensible freePages
    obtain ⟨next, noFree, stillOpen, counter⟩ := DiskManager.allocatePage_counter opened freePages
    rw [Nat.mod_eq_of_lt noWrap] at next
    constructor
    · rw [step]
      generalize system.disk.allocatePage = result at next noFree stillOpen counter ⊢
      obtain ⟨status | pageId, after⟩ := result
      · dsimp only at next noFree stillOpen
        refine ⟨stillOpen, by simp [noFree], by simp [noFree], ?_⟩
        intro other mem
        have below := live other mem
        change other < after.nextPageId
        omega
      dsimp only at next noFree stillOpen
      refine ⟨stillOpen, by simp [noFree], by simp [noFree], ?_⟩
      intro other mem
      change other < after.nextPageId
      rcases List.mem_cons.mp mem with rfl | earlier
      · have same := counter other rfl
        omega
      · have below := live other earlier
        omega
    · intro _ pageId handedOut
      have same := counter pageId handedOut
      subst same
      exact ⟨by omega, fun used => Nat.lt_irrefl _ (live _ used)⟩

theorem deallocatePage {pageId : Nat} (sensible : system.Sensible (.deallocatePage pageId)) :
    (system.step (.deallocatePage pageId)).Disjoint := by
  obtain ⟨opened, distinct, free, live⟩ := disjoint
  rw [step, DiskManager.deallocatePage, if_neg (by simp [opened])]
  split_ifs with zero invalid present
  · exact ⟨opened, distinct, free, live⟩
  · exact ⟨opened, distinct, free, live⟩
  · exact ⟨opened, distinct, free, live⟩
  have below := sensible (by simpa using invalid) present
  refine ⟨opened, List.nodup_cons.mpr ⟨present, distinct⟩, ?_, ?_⟩
  · rw [List.forall_mem_cons]
    constructor
    · exact ⟨zero, below, by simp⟩
    · intro other mem
      obtain ⟨notZero, otherBelow, notLive⟩ := free other mem
      refine ⟨notZero, otherBelow, fun used => notLive ?_⟩
      exact List.mem_of_mem_filter used
  · intro other mem
    exact live other (List.mem_of_mem_filter mem)

theorem step {call : PageCall} (sensible : system.Sensible call) : (system.step call).Disjoint := by
  cases call with
  | allocatePage => exact (disjoint.allocatePage sensible).1
  | deallocatePage pageId => exact disjoint.deallocatePage sensible

theorem handsOutFresh {call : PageCall} (sensible : system.Sensible call) :
    system.HandsOutFresh call := by
  cases call with
  | allocatePage => exact (disjoint.allocatePage sensible).2
  | deallocatePage pageId =>
    intro same
    cases same

end

end Disjoint

/-- In every run of sensible calls after opening, no page in use is handed out
again, nor page 0. -/
theorem pages_handed_out_once (disk : DiskManager)
    (opened : disk.isOpen = true) (noFree : disk.freePages = []) (calls : List PageCall)
    (sensible : Along PageAllocation.step Sensible ⟨disk, []⟩ calls) :
    Along PageAllocation.step HandsOutFresh ⟨disk, []⟩ calls := by
  have start : Disjoint ⟨disk, []⟩ := ⟨opened, by simp [noFree], by simp [noFree], by simp⟩
  exact Along.of_invariant (fun _ _ disjoint => disjoint.step)
    (fun _ _ disjoint => disjoint.handsOutFresh) start sensible

theorem pages_handed_out_once_reuse :
    Along PageAllocation.step HandsOutFresh ⟨emptyFile, []⟩
      [.allocatePage, .deallocatePage 1, .allocatePage] := by
  apply pages_handed_out_once emptyFile rfl rfl
  obtain ⟨next, noFree, opened, -⟩ :=
    @DiskManager.allocatePage_counter emptyFile rfl rfl
  refine ⟨fun _ => by decide, fun _ _ => ?_, fun none => ?_, trivial⟩
  · rw [disk_step_allocatePage, next]
    decide
  · rw [disk_step_deallocatePage, disk_step_allocatePage, DiskManager.deallocatePage, if_neg
      (by simp [opened]), if_neg (by decide), if_neg (by decide), if_neg (by simp [noFree])] at none
    cases none

/-- Page 1 is given back before the counter has reached it. -/
theorem page_handed_out_twice :
    ¬ Along PageAllocation.step HandsOutFresh ⟨emptyFile, []⟩
      [.deallocatePage 1, .allocatePage, .allocatePage] := by
  rintro ⟨-, -, fresh, -⟩
  have ready : emptyFile.Ready := ⟨rfl, rfl⟩
  have addressable : emptyFile.Addressable 1 := by
    rw [DiskManager.addressable_iff]
    decide
  have again := fresh rfl 1 (ready.allocatePage_ok rfl addressable)
  exact again.2 (List.mem_singleton.mpr rfl)

end PageAllocation

end KlyroDB
