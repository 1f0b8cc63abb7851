import KlyroDB.IdempotentReplay
import KlyroDB.RecoveryManager

/-!
# Redo after a crash during redo

Redo treats every page on its own, and a record that has been considered for a
page is settled there.  A crash that leaves some pages as they were after some
prefix of the log is repaired by redo from the start.
-/

namespace KlyroDB

open ByteMemory IdempotentReplay

namespace RecoveryManager

/-- The record passes the checks that `phase_redo` and `redo_record` make
before they fetch its page. -/
def Considered (dirtyPages : DirtyPageTable) (record : LogRecord) : Prop :=
  record.isPhysical = true ∧ 4 ≤ record.getPayloadSize ∧ record.pageId ∈ dirtyPages ∧
    dirtyPages.getRecLsn record.pageId ≤ record.lsn

instance (dirtyPages : DirtyPageTable) (record : LogRecord) :
    Decidable (Considered dirtyPages record) := by
  unfold Considered
  infer_instance

def redoOn (dirtyPages : DirtyPageTable) (pageId : Nat) (page : PageImage)
    (record : LogRecord) : PageImage :=
  if record.pageId = pageId ∧ Considered dirtyPages record then
    redoPage page record
  else page

variable {dirtyPages : DirtyPageTable} {record : LogRecord}

theorem redoStep_of_not_considered (skipped : ¬ Considered dirtyPages record)
    (pages : PageStore) : redoStep dirtyPages pages record = pages := by
  unfold redoStep redoRecord
  split_ifs with physical short dirty early
  · rfl
  · rfl
  · exact absurd ⟨physical, Nat.not_lt.mp short, dirty, Nat.not_lt.mp early⟩ skipped
  · rfl
  · rfl

theorem redoStep_of_considered (considered : Considered dirtyPages record)
    (pages : PageStore) : redoStep dirtyPages pages record = Function.update pages record.pageId
        ((pages record.pageId).map fun page => redoPage page record) := by
  obtain ⟨physical, long, dirty, late⟩ := considered
  unfold redoStep redoRecord
  rw [if_pos physical, if_neg (Nat.not_lt.mpr long),
    if_neg (not_not.mpr dirty), if_neg (Nat.not_lt.mpr late)]
  cases found : pages record.pageId with
  | none => exact (Function.update_eq_self_iff.mpr found.symm).symm
  | some page => rfl

theorem redoStep_apply (dirtyPages : DirtyPageTable) (pages : PageStore)
    (record : LogRecord) (pageId : Nat) :
    redoStep dirtyPages pages record pageId =
      (pages pageId).map fun page => redoOn dirtyPages pageId page record := by
  by_cases considered : Considered dirtyPages record
  · rw [redoStep_of_considered considered]
    by_cases same : pageId = record.pageId
    · subst same
      simp [redoOn, considered]
    · have other : ¬ record.pageId = pageId := Ne.symm same
      simp [redoOn, other, Function.update_of_ne same]
  · rw [redoStep_of_not_considered considered]
    simp [redoOn, considered]

theorem foldl_redoStep_apply (dirtyPages : DirtyPageTable)
    (records : List LogRecord) (pages : PageStore) (pageId : Nat) :
    records.foldl (redoStep dirtyPages) pages pageId = (pages pageId).map fun page =>
        records.foldl (redoOn dirtyPages pageId) page := by
  induction records generalizing pages with
  | nil => simp
  | cons record records ih =>
    rw [List.foldl_cons, ih, redoStep_apply, Option.map_map]
    rfl

def Settled (record : LogRecord) (page : PageImage) : Prop :=
  redoable record = false ∨ record.lsn ≤ page.lsn

theorem redoPage_of_settled {page : PageImage} (settled : Settled record page) :
    redoPage page record = page := by
  unfold redoPage
  rcases settled with unfit | reached
  · rw [unfit]
    simp
  · rw [if_pos reached]

theorem lsn_le_lsn_redoPage (page : PageImage) (typed : record.lsn < 2 ^ 64) :
    page.lsn ≤ (redoPage page record).lsn := by
  unfold redoPage
  split_ifs with reached fit
  · exact le_refl _
  · rw [PageImage.lsn_setLsn _ typed]
    omega
  · exact le_refl _

theorem settled_redoPage (page : PageImage) (typed : record.lsn < 2 ^ 64) :
    Settled record (redoPage page record) := by
  unfold redoPage
  split_ifs with reached fit
  · exact Or.inr reached
  · right
    rw [PageImage.lsn_setLsn _ typed]
  · left
    simpa using fit

/-- LSNs are 64-bit numbers. -/
def Typed (record : LogRecord) : Prop := record.lsn < 2 ^ 64

theorem settles_redoOn (dirtyPages : DirtyPageTable) (pageId : Nat) :
    Settles (redoOn dirtyPages pageId) Typed (fun record page =>
      ¬ (record.pageId = pageId ∧ Considered dirtyPages record) ∨ Settled record page) where
  after_step page record typed := by
    unfold redoOn
    split_ifs with applies
    · exact Or.inr (settled_redoPage page typed)
    · exact Or.inl applies
  kept page record other typed before := by
    rcases before with skipped | unfit | reached
    · exact Or.inl skipped
    · exact Or.inr (Or.inl unfit)
    right
    right
    unfold redoOn
    split_ifs with applies
    · exact reached.trans (lsn_le_lsn_redoPage page typed)
    · exact reached
  no_effect page record settled := by
    unfold redoOn
    split_ifs with applies
    · rcases settled with skipped | settled
      · exact absurd applies skipped
      · exact redoPage_of_settled settled
    · rfl

open PageImage in
theorem sameUpToChecksum_redoOn {first second : PageImage}
    (same : SameUpToChecksum first second) (dirtyPages : DirtyPageTable)
    (pageId : Nat) (record : LogRecord) :
    SameUpToChecksum (redoOn dirtyPages pageId first record)
      (redoOn dirtyPages pageId second record) := by
  unfold redoOn redoPage
  rw [same.lsn_eq]
  split_ifs with applies reached fit
  · exact same
  · exact (same.poke _ _).setLsn _
  · exact same
  · exact same

open PageImage in
theorem sameUpToChecksum_foldl_redoOn (dirtyPages : DirtyPageTable)
    (pageId : Nat) (records : List LogRecord) {first second : PageImage}
    (same : SameUpToChecksum first second) :
    SameUpToChecksum (records.foldl (redoOn dirtyPages pageId) first)
      (records.foldl (redoOn dirtyPages pageId) second) := by
  induction records generalizing first second with
  | nil => exact same
  | cons record records ih => exact ih (sameUpToChecksum_redoOn same dirtyPages pageId record)

/-- The stores hold the same pages, up to their checksum fields. -/
def SameStores (first second : PageStore) : Prop :=
  ∀ pageId, Option.Rel PageImage.SameUpToChecksum (first pageId) (second pageId)

/-- Redo in memory over a disk: the records still to be read, the pages as
the buffer pool shows them, and the pages on disk. -/
structure RedoRun where
  remaining : List LogRecord
  memory : PageStore
  disk : PageStore

/-- Redo goes on, or some page is written back. -/
inductive RedoEvent
  | redoNext
  | writeBack (pageId : Nat)
  deriving DecidableEq, Repr

def redoEvent (dirtyPages : DirtyPageTable) (run : RedoRun) : RedoEvent → RedoRun
  | .redoNext =>
      match run.remaining with
      | [] => run
      | record :: rest =>
          { run with
            remaining := rest
            memory := redoStep dirtyPages run.memory record }
  | .writeBack pageId =>
      let stored := (run.memory pageId).map (·.storedPage pageId)
      { run with
        memory := Function.update run.memory pageId stored
        disk := Function.update run.disk pageId stored }

/-- The disk after a crash that ends a redo with these events. -/
def crashedRedo (dirtyPages : DirtyPageTable) (redoStartLsn : Nat) (log : List LogRecord)
    (pages : PageStore) (events : List RedoEvent) : PageStore :=
  (events.foldl (redoEvent dirtyPages)
    { remaining := redoRecords redoStartLsn log
      memory := pages
      disk := pages }).disk

theorem rel_map {first second : Option PageImage}
    (related : Option.Rel PageImage.SameUpToChecksum first second)
    {left right : PageImage → PageImage}
    (step : ∀ page other, PageImage.SameUpToChecksum page other →
      PageImage.SameUpToChecksum (left page) (right other)) :
    Option.Rel PageImage.SameUpToChecksum (first.map left) (second.map right) := by
  cases related with
  | none => exact Option.Rel.none
  | some same => exact Option.Rel.some (step _ _ same)

theorem rel_refl (page : Option PageImage) : Option.Rel PageImage.SameUpToChecksum page page := by
  cases page with
  | none => exact Option.Rel.none
  | some page => exact Option.Rel.some (PageImage.SameUpToChecksum.refl page)

/-- What every moment of a redo run keeps: memory shows the processed prefix
of the records, and each page on disk some earlier prefix. -/
structure RunInvariant (dirtyPages : DirtyPageTable)
    (records : List LogRecord) (pages : PageStore) (run : RedoRun) : Prop where
  memory : ∃ processed, records = processed ++ run.remaining ∧
    SameStores run.memory (processed.foldl (redoStep dirtyPages) pages)
  disk : ∀ pageId, ∃ written rest, records = written ++ rest ∧ Option.Rel PageImage.SameUpToChecksum
    (run.disk pageId) (written.foldl (redoStep dirtyPages) pages pageId)

section

variable {records : List LogRecord} {pages : PageStore} {run : RedoRun}
  (invariant : RunInvariant dirtyPages records pages run)

include invariant

theorem runInvariant_event (event : RedoEvent) : RunInvariant dirtyPages records pages
      (redoEvent dirtyPages run event) := by
  obtain ⟨processed, split, same⟩ := invariant.memory
  cases event with
  | redoNext =>
    cases left : run.remaining with
    | nil =>
      simp only [redoEvent, left]
      exact invariant
    | cons record rest =>
      simp only [redoEvent, left]
      refine ⟨⟨processed ++ [record], ?_, ?_⟩, invariant.disk⟩
      · rw [split, left, List.append_assoc]
        rfl
      intro pageId
      dsimp only
      rw [List.foldl_append, List.foldl_cons, List.foldl_nil, redoStep_apply, redoStep_apply]
      apply rel_map (same pageId)
      intro page other related
      exact sameUpToChecksum_redoOn related dirtyPages pageId record
  | writeBack written =>
    have stored : Option.Rel PageImage.SameUpToChecksum
        ((run.memory written).map (·.storedPage written))
        (processed.foldl (redoStep dirtyPages) pages written) := by
      have mapped : Option.Rel PageImage.SameUpToChecksum
          ((run.memory written).map (·.storedPage written)) ((processed.foldl (redoStep dirtyPages)
          pages written).map id) := rel_map (same written) fun page other related =>
          related.storedPage written
      rwa [Option.map_id_apply] at mapped
    refine ⟨⟨processed, split, ?_⟩, ?_⟩
    · intro pageId
      by_cases here : pageId = written
      · subst here
        simpa [redoEvent] using stored
      · simpa [redoEvent, Function.update_of_ne here] using same pageId
    intro pageId
    by_cases here : pageId = written
    · subst here
      exact ⟨processed, run.remaining, split, by simpa [redoEvent] using stored⟩
    · simpa [redoEvent, Function.update_of_ne here] using invariant.disk pageId

theorem runInvariant_foldl (events : List RedoEvent) : RunInvariant dirtyPages records pages
      (events.foldl (redoEvent dirtyPages) run) := by
  induction events generalizing run with
  | nil => exact invariant
  | cons event events ih => exact ih (runInvariant_event invariant event)

end

theorem mem_of_mem_redoRecords {redoStartLsn : Nat} {log : List LogRecord}
    (mem : record ∈ redoRecords redoStartLsn log) : record ∈ log := by
  unfold redoRecords seekToLsn at mem
  split_ifs at mem
  · split at mem
    · exact mem
    · exact (List.dropWhile_sublist _).mem mem
  · cases mem

/-- Redo that is interrupted at any point, with any pages written back at any
moments before, and then run from the start, leaves what one uninterrupted
redo leaves, up to checksums; and a second redo changes nothing. -/
theorem phaseRedo_crashedRedo (dirtyPages : DirtyPageTable)
    (redoStartLsn : Nat) (log : List LogRecord) (pages : PageStore) (events : List RedoEvent)
    (typed : ∀ record ∈ log, record.lsn < 2 ^ 64) :
    SameStores (phaseRedo dirtyPages redoStartLsn log
          (crashedRedo dirtyPages redoStartLsn log pages events))
        (phaseRedo dirtyPages redoStartLsn log pages) ∧
      phaseRedo dirtyPages redoStartLsn log (phaseRedo dirtyPages redoStartLsn log pages) =
        phaseRedo dirtyPages redoStartLsn log pages := by
  have admissible : ∀ record ∈ redoRecords redoStartLsn log, Typed record :=
    fun record member => typed record (mem_of_mem_redoRecords member)
  constructor
  · intro pageId
    have start : RunInvariant dirtyPages (redoRecords redoStartLsn log) pages
        { remaining := redoRecords redoStartLsn log
          memory := pages
          disk := pages } :=
      ⟨⟨[], rfl, fun other => rel_refl _⟩, fun other => ⟨[], _, rfl, rel_refl _⟩⟩
    obtain ⟨written, rest, split, related⟩ := (runInvariant_foldl start events).disk pageId
    unfold phaseRedo
    rw [foldl_redoStep_apply, foldl_redoStep_apply]
    rw [foldl_redoStep_apply] at related
    have restarted := rel_map related fun page other same =>
      sameUpToChecksum_foldl_redoOn dirtyPages pageId (redoRecords redoStartLsn log) same
    rw [Option.map_map] at restarted
    have uninterrupted : (List.foldl (redoOn dirtyPages pageId) · (redoRecords redoStartLsn log)) ∘
        (List.foldl (redoOn dirtyPages pageId) · written) = (List.foldl (redoOn dirtyPages pageId) ·
        (redoRecords redoStartLsn log)) := by
      funext page
      rw [split] at admissible ⊢
      exact (settles_redoOn dirtyPages pageId).foldl_append_restart rest (fun record member =>
          admissible record (List.mem_append_left rest member)) page
    rw [uninterrupted] at restarted
    exact restarted
  funext pageId
  unfold phaseRedo
  rw [foldl_redoStep_apply, foldl_redoStep_apply, Option.map_map]
  congr 1
  funext page
  exact (settles_redoOn dirtyPages pageId).foldl_foldl admissible page

/-- An update of page 1 that reaches the disk before a crash. -/
theorem phaseRedo_crashedRedo_written :
    SameStores
      (phaseRedo (AList.insert 1 1 ∅) 1
        [{ lsn := 1, type := .update,
           payload := [1, 0, 0, 0, 40, 0, 1, 0, 7, 9] }]
        (crashedRedo (AList.insert 1 1 ∅) 1
          [{ lsn := 1, type := .update,
             payload := [1, 0, 0, 0, 40, 0, 1, 0, 7, 9] }]
          (fun _ => some ⟨List.replicate 64 0, by decide⟩)
          [.redoNext, .writeBack 1]))
      (phaseRedo (AList.insert 1 1 ∅) 1
        [{ lsn := 1, type := .update,
           payload := [1, 0, 0, 0, 40, 0, 1, 0, 7, 9] }]
        (fun _ => some ⟨List.replicate 64 0, by decide⟩)) :=
  (phaseRedo_crashedRedo (AList.insert 1 1 ∅) 1
    [{ lsn := 1, type := .update,
       payload := [1, 0, 0, 0, 40, 0, 1, 0, 7, 9] }]
    (fun _ => some ⟨List.replicate 64 0, by decide⟩)
    [.redoNext, .writeBack 1] (by decide)).1

end RecoveryManager

end KlyroDB
