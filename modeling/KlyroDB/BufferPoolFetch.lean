import KlyroDB.BufferPoolTransitions

/-!
# The two sections of a fetch keep the invariant

The first section claims a frame for a page, and the second one reads the page
into it or gives the frame up.
-/

namespace KlyroDB

open BufferPool (claimFrame_eq)
open Function (update_of_ne update_self)

namespace PoolRun

section Claiming

variable {run : PoolRun} {base : BufferPool} {frame pageId : Nat}

/-- The pool from which a frame is claimed: the one of the run, with the
frame taken from the free list or found by a sweep of the clock. -/
structure Choice (run : PoolRun) (frame pageId : Nat) (base : BufferPool) : Prop where
  frames_eq : base.frames = run.pool.frames
  disk_eq : base.disk = run.pool.disk
  pageTable_eq : base.pageTable = run.pool.pageTable
  poolSize_eq : base.poolSize = run.pool.poolSize
  freeList_eq : base.freeList = run.pool.freeList.erase frame
  pins : ClockReplacer.PinsAlso run.pool.replacer frame (base.replacer.pin frame)
  bound : frame < run.pool.poolSize
  unpinned : (run.pool.frames frame).pinCount = 0
  missing : run.pool.pageTable.lookup pageId = none
  own : (run.pool.frames frame).isValid = true → ∀ other, run.pool.pageTable.lookup
    (run.pool.frames frame).pageId = some other → other = frame
  clear : ∀ other, run.Dirty other → other ≠ frame → (run.pool.frames other).pageId ≠ pageId

theorem lookup_claimFrame (base : BufferPool) (frame pageId : Nat) :
    (base.claimFrame frame pageId).pageTable.lookup pageId = some frame := by
  exact AList.lookup_insert _

/-- The claimed frame leaves its page, and the other pages stay. -/
theorem Choice.lookup_of_ne (choice : Choice run frame pageId base)
    {other : Nat} (ne : other ≠ pageId) {found : Nat} :
    (base.claimFrame frame pageId).pageTable.lookup other = some found ↔
      run.pool.pageTable.lookup other = some found ∧
        ((run.pool.frames frame).isValid = true → other ≠ (run.pool.frames frame).pageId) := by
  rw [claimFrame_eq]
  rw [AList.lookup_insert_ne ne, BufferPool.withoutFrame, choice.frames_eq, choice.pageTable_eq]
  by_cases valid : (run.pool.frames frame).isValid = true
  · rw [if_pos valid]
    by_cases same : other = (run.pool.frames frame).pageId
    · subst same
      simp [valid]
    · rw [AList.lookup_erase_ne same]
      simp [same]
  · rw [if_neg valid]
    simp [valid]

theorem Choice.lookup_of_frame_ne (choice : Choice run frame pageId base) {other found : Nat}
    (here : run.pool.pageTable.lookup other = some found) (ne : found ≠ frame) :
    (base.claimFrame frame pageId).pageTable.lookup other = some found := by
  apply (choice.lookup_of_ne ?_).mpr
  · refine ⟨here, ?_⟩
    rintro valid rfl
    exact ne (choice.own valid found here)
  · rintro rfl
    rw [choice.missing] at here
    contradiction

theorem Choice.samePages (choice : Choice run frame pageId base) :
    SamePages run.pool (base.claimFrame frame pageId) := by
  have frames := base.frames_claimFrame frame pageId
  rw [choice.frames_eq] at frames
  refine samePages_of_update ?_ frames
  rw [claimFrame_eq]
  exact choice.poolSize_eq

def claimed (run : PoolRun) (base : BufferPool) (frame pageId : Nat) : PoolRun where
  pool := base.claimFrame frame pageId
  held := run.held
  pending := ⟨frame, pageId⟩ :: run.pending
  map := run.map

section

variable (choice : Choice run frame pageId base)

include choice

theorem Choice.freeList_claimed :
    (run.claimed base frame pageId).pool.freeList = run.pool.freeList.erase frame :=
  (base.freeList_claimFrame frame pageId).trans choice.freeList_eq

theorem Choice.settled_iff {other : Nat} :
    (run.claimed base frame pageId).Settled other ↔ run.Settled other ∧ other ≠ frame := by
  have size : (run.claimed base frame pageId).pool.poolSize = run.pool.poolSize :=
    choice.samePages.poolSize_eq
  have valid : ((run.claimed base frame pageId).pool.frames other).isValid =
    (run.pool.frames other).isValid := choice.samePages.isValid_eq other
  have unclaimed : (run.claimed base frame pageId).Unclaimed other ↔
      frame ≠ other ∧ run.Unclaimed other := List.forall_mem_cons
  rw [PoolRun.settled_iff, PoolRun.settled_iff, unclaimed, choice.freeList_claimed, size, valid]
  by_cases same : other = frame
  · simp [same]
  · simp [same, Ne.symm same, List.mem_erase_of_ne same]

end

theorem Invariant.claimed (inv : Invariant run) (choice : Choice run frame pageId base) :
    Invariant (run.claimed base frame pageId) := by
  have same := choice.samePages
  have size : (run.claimed base frame pageId).pool.poolSize = run.pool.poolSize := same.poolSize_eq
  have pages : ∀ other, ((run.claimed base frame pageId).pool.frames other).pageId =
    (run.pool.frames other).pageId := same.pageId_eq
  have disk : (run.claimed base frame pageId).pool.disk = run.pool.disk :=
    (base.disk_claimFrame frame pageId).trans choice.disk_eq
  have replacer : (run.claimed base frame pageId).pool.replacer = base.replacer.pin frame := by
    rw [PoolRun.claimed, claimFrame_eq]
    rfl
  obtain ⟨noHandle, unclaimed⟩ := inv.unpinned choice.unpinned
  obtain ⟨placed, unique, shows, diskShows⟩ :=
    @Invariant.contents run inv (run.claimed base frame pageId) same
      (by rw [disk]; exact DiskManager.SameFile.refl _) rfl
      fun other now => (choice.settled_iff.mp now).1
  constructor
  case aligned =>
    rw [disk]
    exact inv.aligned
  case numFrames_eq =>
    rw [replacer, choice.pins.numFrames_eq, size]
    exact inv.numFrames_eq
  case onClock =>
    rw [replacer, size, ← inv.numFrames_eq, ← choice.pins.numFrames_eq]
    apply choice.pins.onClock
    rw [inv.numFrames_eq]
    exact inv.onClock
  case placed => exact placed
  case table_cases =>
    intro other found here
    by_cases claimed : other = pageId
    · subst claimed
      have own := here.symm.trans (lookup_claimFrame base frame other)
      cases own
      exact Or.inl List.mem_cons_self
    obtain ⟨before, unequal⟩ := (choice.lookup_of_ne claimed).mp here
    rcases inv.table_cases other found before with pending | ⟨settled, page⟩
    · exact Or.inl (List.mem_cons_of_mem _ pending)
    have ne : found ≠ frame := by
      rintro rfl
      exact unequal settled.valid page.symm
    exact Or.inr ⟨choice.settled_iff.mpr ⟨settled, ne⟩, (pages found).trans page⟩
  case settled_table =>
    intro other now
    obtain ⟨settled, ne⟩ := choice.settled_iff.mp now
    rw [pages]
    exact choice.lookup_of_frame_ne (inv.settled_table other settled) ne
  case free_nodup =>
    rw [choice.freeList_claimed]
    exact inv.free_nodup.erase frame
  case free_lt =>
    intro other mem
    rw [choice.freeList_claimed] at mem
    rw [size]
    exact inv.free_lt other (List.mem_of_mem_erase mem)
  case free_unclaimed =>
    intro other mem entry pending
    rw [choice.freeList_claimed, inv.free_nodup.mem_erase_iff] at mem
    rcases List.mem_cons.mp pending with rfl | old
    · exact Ne.symm mem.1
    · exact inv.free_unclaimed other mem.2 entry old
  case pending_nodup =>
    refine List.nodup_cons.mpr ⟨?_, inv.pending_nodup⟩
    intro twice
    obtain ⟨entry, mem, here⟩ := List.mem_map.mp twice
    exact unclaimed entry mem here
  case pending_lt =>
    intro entry mem
    rw [size]
    rcases List.mem_cons.mp mem with rfl | old
    · exact choice.bound
    · exact inv.pending_lt entry old
  case pending_table =>
    intro entry mem
    rcases List.mem_cons.mp mem with rfl | old
    · exact lookup_claimFrame base _ _
    · exact choice.lookup_of_frame_ne (inv.pending_table entry old) (unclaimed entry old)
  case pending_clear =>
    intro entry mem other dirty ne
    rw [pages]
    have before := (same.dirty_iff other).mp dirty
    rcases List.mem_cons.mp mem with rfl | old
    · exact choice.clear other before ne
    · exact inv.pending_clear entry old other before ne
  case active_unique => exact unique
  case shows => exact shows
  case disk_shows => exact diskShows
  case pinCount_eq =>
    intro other
    have count := inv.pinCount_eq other
    dsimp only [PoolRun.claimed]
    rw [BufferPool.frames_claimFrame, choice.frames_eq, List.countP_cons]
    by_cases here : other = frame
    · subst here
      rw [update_self]
      simp only [decide_true, if_true]
      omega
    · rw [update_of_ne here]
      simp only [decide_eq_true_eq, Ne.symm here, if_false]
      omega
  case pinned =>
    intro other bound positive
    rw [size] at bound
    rw [replacer]
    by_cases here : other = frame
    · subst here
      apply choice.pins.pinned
      rw [inv.numFrames_eq]
      exact bound
    · dsimp only [PoolRun.claimed] at positive
      rw [BufferPool.frames_claimFrame, update_of_ne here, choice.frames_eq] at positive
      rw [choice.pins.others other here]
      exact inv.pinned other bound positive
  case held_settled =>
    intro handle mem
    obtain ⟨settled, page⟩ := inv.held_settled handle mem
    exact ⟨choice.settled_iff.mpr ⟨settled, noHandle handle mem⟩, (pages handle.frame).trans page⟩

end Claiming

section Planning

variable {run : PoolRun} {pageId : Nat}

inductive PlanOutcome (run : PoolRun) (pageId : Nat) : FetchPlan → BufferPool → Prop
  | hit {frame : Nat} (found : run.pool.pageTable.lookup pageId = some frame) :
      PlanOutcome run pageId (.hit frame)
        { run.pool.pinFrame frame with
          replacer := (run.pool.pinFrame frame).replacer.recordAccess frame }
  | exhausted {replacer : ClockReplacer}
      (invariant : Invariant
        ⟨{ run.pool with replacer := replacer }, run.held, run.pending, run.map⟩) :
      PlanOutcome run pageId .exhausted { run.pool with replacer := replacer }
  | miss {frame : Nat} {base : BufferPool} (choice : Choice run frame pageId base) (source :
      run.pool.freeList.head? = some frame ∨ run.pool.freeList = []) : PlanOutcome run pageId
      (.miss frame) (base.claimFrame frame pageId)

theorem Invariant.swept (inv : Invariant run) :
    Invariant
      ⟨{ run.pool with replacer := run.pool.replacer.victim.2 }, run.held,
        run.pending, run.map⟩ := by
  obtain ⟨same, onClock, _⟩ := run.pool.replacer.victim_spec
  rw [inv.numFrames_eq] at onClock
  have hand := onClock inv.onClock
  rw [same.1, inv.numFrames_eq] at hand
  have unchanged : Touched run 0 { run.pool.frames 0 with pinCount := (run.pool.frames 0).pinCount }
      { run.pool with replacer := run.pool.replacer.victim.2 } := ⟨rfl, rfl, rfl,
      (Function.update_eq_self 0 run.pool.frames).symm, rfl, rfl⟩
  refine inv.repinned unchanged rfl ⟨same.1, hand, inv.pinCount_eq, ?_, inv.held_settled⟩
  intro frame bound positive
  exact (same.2 frame).trans (inv.pinned frame bound positive)

/-- A dirty frame with a page that is not in the page table is the next one
to be taken from the free list. -/
theorem Invariant.planFetch (inv : Invariant run) (stale : ∀ frame ∈ run.pool.freeList,
      (run.pool.frames frame).isValid = true →
      run.pool.pageTable.lookup (run.pool.frames frame).pageId = none)
    (clear : ∀ frame, run.Dirty frame → (run.pool.frames frame).pageId = pageId →
      run.Settled frame ∨ run.pool.freeList = [frame]) :
    PlanOutcome run pageId (run.pool.planFetch pageId).1 (run.pool.planFetch pageId).2 := by
  unfold BufferPool.planFetch
  cases found : run.pool.pageTable.lookup pageId with
  | some frame => exact .hit found
  | none =>
    have notSettled : ∀ frame, run.Settled frame → (run.pool.frames frame).pageId ≠ pageId := by
      intro frame settled same
      have table := inv.settled_table frame settled
      rw [same, found] at table
      contradiction
    cases free : run.pool.freeList with
    | cons frame freeList =>
      have mem : frame ∈ run.pool.freeList := by
        rw [free]
        exact List.mem_cons_self
      refine .miss ?_ (Or.inl (by rw [free]; rfl))
      refine ⟨rfl, rfl, rfl, rfl, ?_, ClockReplacer.pinsAlso_pin _ _, inv.free_lt frame
        mem, inv.pinCount_of_free mem, found, ?_, ?_⟩
      · rw [free, List.erase_cons_head]
      · intro valid other here
        rw [stale frame mem valid] at here
        contradiction
      intro other dirty ne same
      rcases clear other dirty same with settled | alone
      · exact notSettled other settled same
      · rw [free] at alone
        exact ne (List.cons.inj alone).1.symm
    | nil =>
      obtain ⟨samePins, onClock, safe⟩ := run.pool.replacer.victim_spec
      have hand : run.pool.replacer.clockHand < run.pool.replacer.numFrames := by
        rw [inv.numFrames_eq]
        exact inv.onClock
      have swept := inv.swept
      generalize run.pool.replacer.victim = answer at samePins onClock safe swept
      obtain ⟨victim, replacer⟩ := answer
      cases victim with
      | none =>
        dsimp only
        rw [← free]
        exact .exhausted swept
      | some frame =>
        obtain ⟨bound, unpinned⟩ := safe frame hand rfl
        rw [inv.numFrames_eq] at bound
        have noPins : (run.pool.frames frame).pinCount = 0 := by
          by_contra positive
          have pinned := inv.pinned frame bound (Nat.pos_of_ne_zero positive)
          rw [unpinned] at pinned
          contradiction
        refine .miss ?_ (Or.inr free)
        refine ⟨rfl, rfl, rfl, rfl, ?_, (ClockReplacer.pinsAlso_pin _ _).of_sweep samePins onClock,
          bound, noPins, found, ?_, ?_⟩
        · rw [free]
          rfl
        · intro valid other here
          have settled : run.Settled frame := ⟨bound, valid, by rw [free]; exact List.not_mem_nil,
            (inv.unpinned noPins).2⟩
          rw [inv.settled_table frame settled] at here
          exact (Option.some.inj here).symm
        intro other dirty _ same
        rcases clear other dirty same with settled | alone
        · exact notSettled other settled same
        · rw [free] at alone
          contradiction

end Planning

section Reading

variable {run : PoolRun} {after : BufferPool} {frame pageId : Nat}

theorem Invariant.mem_erase_pending (inv : Invariant run)
    {done entry : PageHandle} (mem : done ∈ run.pending) :
    entry ∈ run.pending.erase done ↔ entry ∈ run.pending ∧ entry.frame ≠ done.frame := by
  rw [inv.pending_nodup.of_map.mem_erase_iff]
  constructor
  · rintro ⟨ne, pending⟩
    refine ⟨pending, fun same => ne ?_⟩
    exact List.inj_on_of_nodup_map inv.pending_nodup pending mem same
  · rintro ⟨pending, ne⟩
    refine ⟨?_, pending⟩
    rintro rfl
    exact ne rfl

theorem Invariant.unclaimed_erase (inv : Invariant run)
    (mem : ⟨frame, pageId⟩ ∈ run.pending) {held : List PageHandle}
    {map : Nat → Option PageImage} {other : Nat} :
    (⟨after, held, run.pending.erase ⟨frame, pageId⟩, map⟩ :
        PoolRun).Unclaimed other ↔ run.Unclaimed other ∨ other = frame := by
  constructor
  · intro now
    by_cases same : other = frame
    · exact Or.inr same
    left
    intro entry pending here
    refine now entry ?_ here
    exact (inv.mem_erase_pending mem).mpr ⟨pending, fun own => same (here.symm.trans own)⟩
  · rintro (before | rfl) entry remains
    · exact before entry ((inv.mem_erase_pending mem).mp remains).1
    · exact ((inv.mem_erase_pending mem).mp remains).2

theorem countP_erase_pending {pending : List PageHandle} {done : PageHandle}
    (mem : done ∈ pending) (other : Nat) :
    pending.countP (fun entry => entry.frame = other) =
      (pending.erase done).countP (fun entry => entry.frame = other) +
        if done.frame = other then 1 else 0 := by
  rw [(List.perm_cons_erase mem).countP_eq, List.countP_cons]
  simp only [decide_eq_true_eq]

/-- The run in which the frame holds its page. -/
def loaded (run : PoolRun) (after : BufferPool) (frame pageId : Nat) : PoolRun where
  pool := after
  held := ⟨frame, pageId⟩ :: run.held
  pending := run.pending.erase ⟨frame, pageId⟩
  map := run.map

section Loaded

variable {page : Page} (load : BufferPool.Loaded run.pool frame pageId page after)
include load

theorem frame_loaded : after.frames frame =
    { run.pool.frames frame with
      page := page
      pageId := pageId
      isValid := true
      isDirty := false } := by rw [load.frames_eq, update_self]

theorem frame_loaded_of_ne {other : Nat} (ne : other ≠ frame) :
    after.frames other = run.pool.frames other := by rw [load.frames_eq, update_of_ne ne]

theorem dirty_loaded (other : Nat) :
    (run.loaded after frame pageId).Dirty other ↔ other ≠ frame ∧ run.Dirty other := by
  rw [dirty_iff, dirty_iff]
  dsimp only [loaded]
  rw [load.poolSize_eq]
  by_cases same : other = frame
  · subst same
    rw [frame_loaded load]
    simp
  · rw [frame_loaded_of_ne load same]
    simp [same]

theorem Invariant.settled_loaded (inv : Invariant run)
    (mem : ⟨frame, pageId⟩ ∈ run.pending) (other : Nat) :
    (run.loaded after frame pageId).Settled other ↔ other = frame ∨ run.Settled other := by
  have unclaimed : (run.loaded after frame pageId).Unclaimed other ↔ _ := inv.unclaimed_erase mem
  rw [settled_iff, settled_iff, unclaimed]
  dsimp only [loaded]
  rw [load.poolSize_eq, load.freeList_eq]
  by_cases same : other = frame
  · rw [same, frame_loaded load]
    simp [inv.pending_lt _ mem, inv.pending_notFree mem]
  · rw [frame_loaded_of_ne load same]
    simp [same]

/-- The page that was read is the one of the map, since no frame has a newer
copy of it. -/
theorem Invariant.shows_loaded (inv : Invariant run) (clear : ∀ other, run.Dirty other →
      (run.pool.frames other).pageId ≠ pageId) : ShowsMap run.map (after.frames frame) := by
  obtain ⟨image, stored, related⟩ := load.stored
  have shown := inv.disk_shows pageId clear
  rw [stored] at shown
  rw [frame_loaded load]
  cases inMap : run.map pageId with
  | none =>
    rw [inMap] at shown
    cases shown
  | some current =>
    rw [inMap] at shown
    cases shown with
    | some same => exact ⟨current, inMap, related.trans same⟩

theorem Invariant.read (inv : Invariant run)
    (mem : ⟨frame, pageId⟩ ∈ run.pending) (clean : ¬ run.Dirty frame) :
    Invariant (run.loaded after frame pageId) := by
  have remains := fun entry =>
    @inv.mem_erase_pending run ⟨frame, pageId⟩ entry mem
  have claimedTable := inv.pending_table _ mem
  have own := frame_loaded load
  have others := fun other => @frame_loaded_of_ne _ _ _ _ _ load other
  have pins : ∀ other, (after.frames other).pinCount = (run.pool.frames other).pinCount := by
    rw [load.frames_eq]
    exact field_update BufferFrame.pinCount rfl
  have dirtyNow := dirty_loaded load
  have settledNow := inv.settled_loaded load mem
  have notSettled : ¬ run.Settled frame := fun settled =>
    settled.unclaimed _ mem rfl
  have clear : ∀ other, run.Dirty other → (run.pool.frames other).pageId ≠ pageId := by
    intro other dirty
    by_cases same : other = frame
    · subst same
      exact absurd dirty clean
    · exact inv.pending_clear _ mem other dirty same
  have activeNow : ∀ other, other ≠ frame → (run.loaded after frame pageId).Active other →
      run.Active other ∧ (run.pool.frames other).pageId ≠ pageId := by
    intro other ne now
    rcases now with dirty | settled
    · have before := ((dirtyNow other).mp dirty).2
      exact ⟨Or.inl before, clear other before⟩
    have before := ((settledNow other).mp settled).resolve_left ne
    refine ⟨Or.inr before, fun same => ?_⟩
    have table := inv.settled_table other before
    rw [same, claimedTable] at table
    exact ne (Option.some.inj table).symm
  dsimp only [loaded] at dirtyNow settledNow activeNow ⊢
  constructor
  case aligned => exact load.sameFile.aligned inv.aligned
  case numFrames_eq =>
    rw [load.samePins.1, load.poolSize_eq]
    exact inv.numFrames_eq
  case onClock =>
    rw [load.clockHand_eq, load.poolSize_eq]
    exact inv.onClock
  case placed =>
    intro other inside valid
    rw [load.poolSize_eq] at inside
    by_cases same : other = frame
    · obtain ⟨image, stored, related⟩ := load.stored
      rw [same, own]
      refine ⟨load.page_id, load.addressable.congr load.sameFile.pageSize_eq
        load.sameFile.isOpen_eq, ?_, ?_⟩
      · dsimp only
        rw [load.sameFile.nextPageId_eq, ← DiskManager.stored_isSome_iff inv.aligned, stored]
        rfl
      · dsimp only
        rw [related.1, DiskManager.length_stored stored, load.sameFile.pageSize_eq]
    · rw [others other same] at valid ⊢
      exact (inv.placed other inside valid).congr load.sameFile.pageSize_eq
        load.sameFile.isOpen_eq (le_of_eq load.sameFile.nextPageId_eq.symm)
  case table_cases =>
    intro other found here
    rw [settledNow]
    rw [load.pageTable_eq] at here
    by_cases same : found = frame
    · right
      refine ⟨Or.inl same, ?_⟩
      rw [same, own]
      subst same
      rcases inv.table_cases other found here with pending | settled
      · have equal := List.inj_on_of_nodup_map inv.pending_nodup pending mem rfl
        cases equal
        rfl
      · exact absurd settled.1 notSettled
    · rw [others found same]
      rcases inv.table_cases other found here with pending | settled
      · exact Or.inl ((remains _).mpr ⟨pending, same⟩)
      · exact Or.inr ⟨Or.inr settled.1, settled.2⟩
  case settled_table =>
    intro other now
    rw [settledNow] at now
    rw [load.pageTable_eq]
    by_cases same : other = frame
    · rw [same, own]
      exact claimedTable
    · rw [others other same]
      exact inv.settled_table other (now.resolve_left same)
  case free_nodup =>
    rw [load.freeList_eq]
    exact inv.free_nodup
  case free_lt =>
    rw [load.freeList_eq, load.poolSize_eq]
    exact inv.free_lt
  case free_unclaimed =>
    intro other free
    rw [load.freeList_eq] at free
    exact (inv.unclaimed_erase mem).mpr (Or.inl (inv.free_unclaimed other free))
  case pending_nodup => exact inv.pending_nodup.sublist (List.erase_sublist.map _)
  case pending_lt =>
    intro entry pending
    rw [load.poolSize_eq]
    exact inv.pending_lt entry ((remains entry).mp pending).1
  case pending_table =>
    intro entry pending
    rw [load.pageTable_eq]
    exact inv.pending_table entry ((remains entry).mp pending).1
  case pending_clear =>
    intro entry pending other dirty ne
    obtain ⟨unequal, before⟩ := (dirtyNow other).mp dirty
    rw [others other unequal]
    exact inv.pending_clear entry ((remains entry).mp pending).1 other before ne
  case active_unique =>
    intro first second firstNow secondNow equal
    by_cases firstHere : first = frame
    · by_cases secondHere : second = frame
      · exact firstHere.trans secondHere.symm
      · rw [firstHere, own, others second secondHere] at equal
        exact absurd equal.symm (activeNow second secondHere secondNow).2
    by_cases secondHere : second = frame
    · rw [secondHere, own, others first firstHere] at equal
      exact absurd equal (activeNow first firstHere firstNow).2
    · rw [others first firstHere, others second secondHere] at equal
      exact inv.active_unique first second (activeNow first firstHere firstNow).1
        (activeNow second secondHere secondNow).1 equal
  case shows =>
    intro other now
    have shown := inv.shows_loaded load clear
    by_cases same : other = frame
    · rw [same]
      exact shown
    · rw [others other same]
      exact inv.shows other (activeNow other same now).1
  case disk_shows =>
    intro other absent
    rw [load.sameFile.stored_eq]
    apply inv.disk_shows
    intro holder dirty
    have unequal : holder ≠ frame := by
      rintro rfl
      exact clean dirty
    rw [← others holder unequal]
    exact absent holder ((dirtyNow holder).mpr ⟨unequal, dirty⟩)
  case pinCount_eq =>
    intro other
    have count := inv.pinCount_eq other
    rw [countP_erase_pending mem] at count
    dsimp only at count
    rw [pins, List.countP_cons]
    simp only [decide_eq_true_eq]
    omega
  case pinned =>
    intro other inside positive
    rw [load.poolSize_eq] at inside
    rw [pins] at positive
    rw [load.samePins.2]
    exact inv.pinned other inside positive
  case held_settled =>
    intro handle held
    rw [settledNow]
    rcases List.mem_cons.mp held with rfl | old
    · exact ⟨Or.inl rfl, by rw [own]⟩
    obtain ⟨settled, page⟩ := inv.held_settled handle old
    have unequal : handle.frame ≠ frame := fun same =>
      notSettled (same ▸ settled)
    rw [others _ unequal]
    exact ⟨Or.inr settled, page⟩

end Loaded

def abandoned (run : PoolRun) (after : BufferPool) (frame pageId : Nat) : PoolRun where
  pool := after
  held := run.held
  pending := run.pending.erase ⟨frame, pageId⟩
  map := run.map

section Abandoned

variable (abandon : BufferPool.Abandoned run.pool frame pageId after)
include abandon

theorem samePages_abandoned : SamePages run.pool after :=
  samePages_of_update abandon.poolSize_eq abandon.frames_eq

theorem dirty_abandoned (other : Nat) :
    (run.abandoned after frame pageId).Dirty other ↔ run.Dirty other :=
  (samePages_abandoned abandon).dirty_iff other

theorem Invariant.settled_abandoned (inv : Invariant run)
    (mem : ⟨frame, pageId⟩ ∈ run.pending) (other : Nat) :
    (run.abandoned after frame pageId).Settled other ↔ run.Settled other := by
  have same := samePages_abandoned abandon
  have unclaimed : (run.abandoned after frame pageId).Unclaimed other ↔ _ :=
    inv.unclaimed_erase mem
  have own : other = frame → ¬ run.Unclaimed other := fun here free => free _ mem here.symm
  rw [settled_iff, settled_iff, unclaimed]
  dsimp only [abandoned]
  rw [same.poolSize_eq, same.isValid_eq, abandon.freeList_eq, List.mem_append, List.mem_singleton]
  tauto

theorem lookup_abandoned {other found : Nat} :
    after.pageTable.lookup other = some found ↔
      other ≠ pageId ∧ run.pool.pageTable.lookup other = some found := by
  rw [abandon.pageTable_eq]
  by_cases same : other = pageId
  · subst same
    simp
  · rw [AList.lookup_erase_ne same]
    simp [same]

theorem Invariant.givenUp (inv : Invariant run) (mem : ⟨frame, pageId⟩ ∈ run.pending) :
    Invariant (run.abandoned after frame pageId) := by
  have same := samePages_abandoned abandon
  have remains := fun entry =>
    @inv.mem_erase_pending run ⟨frame, pageId⟩ entry mem
  have claimedTable := inv.pending_table _ mem
  have settledNow := inv.settled_abandoned abandon mem
  have dirtyNow := dirty_abandoned abandon
  have table := @lookup_abandoned run after frame pageId abandon
  obtain ⟨placed, unique, shows, diskShows⟩ :=
    @Invariant.contents run inv (run.abandoned after frame pageId) same abandon.sameFile rfl
      fun other => (settledNow other).mp
  dsimp only [abandoned] at settledNow dirtyNow ⊢
  constructor
  case aligned => exact abandon.sameFile.aligned inv.aligned
  case numFrames_eq =>
    rw [abandon.numFrames_eq, same.poolSize_eq]
    exact inv.numFrames_eq
  case onClock =>
    rw [abandon.clockHand_eq, same.poolSize_eq]
    exact inv.onClock
  case placed => exact placed
  case table_cases =>
    intro other found here
    obtain ⟨ne, before⟩ := table.mp here
    rw [settledNow]
    rw [same.pageId_eq]
    rcases inv.table_cases other found before with pending | settled
    · left
      refine (remains _).mpr ⟨pending, fun here => ne ?_⟩
      have equal := List.inj_on_of_nodup_map inv.pending_nodup pending mem here
      exact congrArg PageHandle.pageId equal
    · exact Or.inr settled
  case settled_table =>
    intro other now
    have settled := (settledNow other).mp now
    have before := inv.settled_table other settled
    rw [same.pageId_eq]
    refine table.mpr ⟨fun here => ?_, before⟩
    rw [here, claimedTable] at before
    exact settled.unclaimed _ mem (Option.some.inj before)
  case free_nodup =>
    rw [abandon.freeList_eq, List.nodup_append_comm]
    exact List.nodup_cons.mpr ⟨inv.pending_notFree mem, inv.free_nodup⟩
  case free_lt =>
    intro other free
    rw [abandon.freeList_eq, List.mem_append, List.mem_singleton] at free
    rw [same.poolSize_eq]
    rcases free with old | rfl
    · exact inv.free_lt other old
    · exact inv.pending_lt _ mem
  case free_unclaimed =>
    intro other free
    rw [abandon.freeList_eq, List.mem_append, List.mem_singleton] at free
    exact (inv.unclaimed_erase mem).mpr (free.imp (inv.free_unclaimed other) id)
  case pending_nodup => exact inv.pending_nodup.sublist (List.erase_sublist.map _)
  case pending_lt =>
    intro entry pending
    rw [same.poolSize_eq]
    exact inv.pending_lt entry ((remains entry).mp pending).1
  case pending_table =>
    intro entry pending
    obtain ⟨before, ne⟩ := (remains entry).mp pending
    have here := inv.pending_table entry before
    refine table.mpr ⟨fun own => ?_, here⟩
    rw [own, claimedTable] at here
    exact ne (Option.some.inj here).symm
  case pending_clear =>
    intro entry pending other dirty ne
    rw [same.pageId_eq]
    exact inv.pending_clear entry ((remains entry).mp pending).1 other
      ((dirtyNow other).mp dirty) ne
  case active_unique => exact unique
  case shows => exact shows
  case disk_shows => exact diskShows
  case pinCount_eq =>
    intro other
    have count := inv.pinCount_eq other
    rw [countP_erase_pending mem] at count
    rw [abandon.frames_eq]
    by_cases here : other = frame
    · subst here
      rw [update_self]
      simp only [if_true] at count
      dsimp only
      omega
    · rw [update_of_ne here]
      simp only [Ne.symm here, if_false] at count
      omega
  case pinned =>
    intro other bound positive
    rw [same.poolSize_eq] at bound
    rw [abandon.keepsPins other positive]
    apply inv.pinned other bound
    rw [abandon.frames_eq, Function.update_apply] at positive
    split_ifs at positive with here
    · rw [here]
      dsimp only at positive
      omega
    · exact positive
  case held_settled =>
    intro handle held
    rw [settledNow]
    rw [same.pageId_eq]
    exact inv.held_settled handle held

end Abandoned

end Reading

section Loading

variable {run : PoolRun} {after : BufferPool} {frame pageId : Nat}

theorem Invariant.flushFrame (inv : Invariant run) (dirty : run.Dirty frame) :
    BufferPool.Flushed run.pool frame (run.pool.flushFrame frame).1
      (run.pool.flushFrame frame).2 := by
  have placed := inv.placed frame dirty.bound dirty.valid
  apply BufferPool.flushFrame_flushed inv.aligned
  · rw [placed.page_id]
    exact placed.addressable
  · exact placed.length_eq
  · rw [placed.page_id]
    exact placed.exists_

structure LoadKeeps (pool : BufferPool) (frame : Nat) (after : BufferPool) : Prop where
  poolSize_eq : after.poolSize = pool.poolSize
  others : ∀ other, other ≠ frame → after.frames other = pool.frames other
  faults_eq : pool.disk.faults = [] → after.disk.faults = []

structure WrittenBack (run : PoolRun) (frame : Nat) (after : BufferPool) : Prop where
  invariant : Invariant ⟨after, run.held, run.pending, run.map⟩
  isValid_eq : (after.frames frame).isValid = (run.pool.frames frame).isValid
  pageId_eq : (after.frames frame).pageId = (run.pool.frames frame).pageId
  pageTable_eq : after.pageTable = run.pool.pageTable
  freeList_eq : after.freeList = run.pool.freeList
  keeps : LoadKeeps run.pool frame after

theorem Invariant.writtenBack_refl (inv : Invariant run) (frame : Nat) :
    WrittenBack run frame run.pool :=
  ⟨inv, rfl, rfl, rfl, rfl, rfl, fun _ _ => rfl, id⟩

theorem Invariant.writtenBack (inv : Invariant run)
    (dirty : run.Dirty frame) {status : Option Status}
    (flush : BufferPool.Flushed run.pool frame status after) : WrittenBack run frame after := by
  obtain ⟨image, written, _⟩ := flush.written
  refine ⟨inv.flushed dirty flush, ?_, ?_, flush.pageTable_eq,
    flush.freeList_eq, flush.poolSize_eq, ?_, written.faults_eq⟩
  · rw [flush.frames_eq, update_self]
    rfl
  · rw [flush.frames_eq, update_self]
    rfl
  · intro other ne
    rw [flush.frames_eq, update_of_ne ne]

inductive LoadOutcome (run : PoolRun) (frame pageId : Nat) : Except Status Nat → BufferPool → Prop
  | ok {after : BufferPool} (invariant : Invariant (run.loaded after frame pageId)) (pageTable_eq :
      after.pageTable = run.pool.pageTable) (freeList_eq : after.freeList = run.pool.freeList)
      (keeps : LoadKeeps run.pool frame after) : LoadOutcome run frame pageId (.ok frame) after
  | error {after : BufferPool} {status : Status} (disk : status ≠ .internalError) (invariant :
      Invariant (run.abandoned after frame pageId)) (isValid_eq : (after.frames frame).isValid =
      (run.pool.frames frame).isValid) (pageId_eq : (after.frames frame).pageId =
      (run.pool.frames frame).pageId) (pageTable_eq : after.pageTable = run.pool.pageTable.erase
      pageId) (freeList_eq : after.freeList = run.pool.freeList ++ [frame])
      (keeps : LoadKeeps run.pool frame after) : LoadOutcome run frame pageId (.error status) after

theorem WrittenBack.error {middle : BufferPool} {status : Status}
    (written : WrittenBack run frame middle) (mem : ⟨frame, pageId⟩ ∈ run.pending)
    (disk : status ≠ .internalError) (abandon : BufferPool.Abandoned middle frame pageId after) :
    LoadOutcome run frame pageId (.error status) after := by
  have same := samePages_of_update abandon.poolSize_eq abandon.frames_eq
  have kept : Invariant (run.abandoned after frame pageId) := @Invariant.givenUp
    ⟨middle, run.held, run.pending, run.map⟩ after frame pageId abandon written.invariant mem
  refine .error disk kept ?_ ?_ ?_ ?_ ⟨?_, ?_, ?_⟩
  · exact (same.isValid_eq frame).trans written.isValid_eq
  · exact (same.pageId_eq frame).trans written.pageId_eq
  · rw [abandon.pageTable_eq, written.pageTable_eq]
  · rw [abandon.freeList_eq, written.freeList_eq]
  · rw [abandon.poolSize_eq, written.keeps.poolSize_eq]
  · intro other ne
    rw [abandon.frames_eq, update_of_ne ne, written.keeps.others other ne]
  · intro faultless
    exact abandon.sameFile.faults_eq (written.keeps.faults_eq faultless)

theorem WrittenBack.readFrame {middle : BufferPool} (written : WrittenBack run frame middle)
    (mem : ⟨frame, pageId⟩ ∈ run.pending) (clean : middle.isDirtyFrame frame ≠ true) :
    LoadOutcome run frame pageId (middle.readFrame frame pageId).1
      (middle.readFrame frame pageId).2 := by
  generalize answer : middle.readFrame frame pageId = result
  obtain ⟨status | found, after⟩ := result
  · obtain ⟨disk, abandon⟩ := BufferPool.readFrame_error answer
    exact written.error mem disk abandon
  obtain ⟨rfl, page, load⟩ := BufferPool.readFrame_ok answer
  have kept : Invariant (run.loaded after found pageId) := @Invariant.read
    ⟨middle, run.held, run.pending, run.map⟩ after found pageId page load written.invariant mem
    fun dirty => clean dirty.dirty
  refine .ok kept ?_ ?_ ⟨?_, ?_, ?_⟩
  · rw [load.pageTable_eq, written.pageTable_eq]
  · rw [load.freeList_eq, written.freeList_eq]
  · rw [load.poolSize_eq, written.keeps.poolSize_eq]
  · intro other ne
    rw [load.frames_eq, update_of_ne ne, written.keeps.others other ne]
  · intro faultless
    exact load.sameFile.faults_eq (written.keeps.faults_eq faultless)

theorem Invariant.loadFrame (inv : Invariant run) (mem : ⟨frame, pageId⟩ ∈ run.pending) :
    LoadOutcome run frame pageId (run.pool.loadFrame frame pageId).1
      (run.pool.loadFrame frame pageId).2 := by
  unfold BufferPool.loadFrame
  by_cases dirty : run.pool.isDirtyFrame frame = true
  · have before : run.Dirty frame := ⟨inv.pending_lt _ mem, dirty⟩
    have flush := inv.flushFrame before
    rw [if_pos dirty]
    generalize run.pool.flushFrame frame = result at flush
    obtain ⟨status, middle⟩ := result
    have written := inv.writtenBack before flush
    cases status with
    | some status =>
      refine written.error mem ?_ (BufferPool.abandonFetch_abandoned middle frame pageId)
      rw [(flush.failed status rfl).1]
      decide
    | none =>
      refine written.readFrame mem ?_
      rw [BufferPool.isDirtyFrame, flush.frames_eq, update_self]
      simp [BufferFrame.flushed]
  · rw [if_neg dirty]
    exact (inv.writtenBack_refl frame).readFrame mem dirty

end Loading

end PoolRun

end KlyroDB
