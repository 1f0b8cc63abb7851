import KlyroDB.UpdateImages

/-!
# Compensation records and a second recovery

`undo_record` appends a compensation record and stamps the page with its LSN.
`redo_record` applies update records only, so a second recovery relies on what
the first redo did and on the page that reached the disk.
-/

namespace KlyroDB

open ByteMemory

namespace RecoveryManager

structure Compensates (state : UndoState) (update clr : LogRecord) : Prop where
  type_eq : update.type = .update
  images : 8 + update.length * 2 ≤ update.getPayloadSize
  clr_eq : clr =
    { lsn := state.nextLsn
      txnId := update.txnId
      type := .clr
      undoNextLsn := update.prevLsn
      payload := slice update.payload 0 (8 + update.length) }

theorem compensates_of_appended {state : UndoState} {update clr : LogRecord}
    (undone : (undoRecord state update).appended =
      state.appended ++ [clr]) : Compensates state update clr := by
  have idle : state.appended ≠ state.appended ++ [clr] := by
    intro same
    have lengths := congrArg List.length same
    simp at lengths
  rw [undoRecord] at undone
  by_cases short : update.getPayloadSize < 4
  · rw [if_pos short] at undone
    exact absurd undone idle
  rw [if_neg short] at undone
  cases fetched : state.pages update.pageId with
  | none =>
    rw [fetched] at undone
    exact absurd undone idle
  | some page =>
    rw [fetched] at undone
    dsimp only at undone
    by_cases isUpdate : update.type = .update
    · rw [if_neg (not_not_intro isUpdate)] at undone
      by_cases tooShort : update.getPayloadSize < 8 + update.length * 2
      · rw [if_pos tooShort] at undone
        exact absurd undone idle
      · rw [if_neg tooShort] at undone
        refine ⟨isUpdate, Nat.not_lt.mp tooShort, ?_⟩
        obtain ⟨_, last⟩ := List.append_inj' undone rfl
        exact (List.singleton_inj.mp last).symm
    · rw [if_pos isUpdate] at undone
      exact absurd undone idle

section Compensation

variable {state : UndoState} {update clr : LogRecord}

section

variable (compensates : Compensates state update clr)

include compensates

theorem Compensates.payload_ge : 8 + update.length * 2 ≤ update.payload.length :=
  compensates.images.trans (Nat.mod_le _ _)

theorem Compensates.firstImage_length : update.firstImage.length = update.length :=
  length_slice (by
    have long := compensates.payload_ge
    omega)

theorem Compensates.clr_pageId : clr.pageId = update.pageId := by
  rw [compensates.clr_eq, LogRecord.pageId, LogRecord.pageId, readNat, readNat,
    slice_slice (by omega)]

theorem Compensates.redoable : redoable update = true := by
  have long := compensates.images
  rw [RecoveryManager.redoable, compensates.type_eq]
  simp only [beq_self_eq_true, Bool.true_and, Bool.and_eq_true, decide_eq_true_eq]
  omega

theorem Compensates.analysis (typed : update.lsn < 2 ^ 64) :
    (phaseAnalysis [update, clr] none).1.dirtyPageTable = AList.insert update.pageId update.lsn ∅ ∧
      (phaseAnalysis [update, clr] none).2 = update.lsn := by
  have long := compensates.images
  have sameClr := compensates.clr_pageId
  have first : DirtyPageTable.update ∅ update.pageId update.lsn = AList.insert update.pageId
      update.lsn ∅ := if_neg (AList.notMem_empty _)
  have second (lsn : Nat) : DirtyPageTable.update (AList.insert update.pageId update.lsn ∅)
      update.pageId lsn = AList.insert update.pageId update.lsn ∅ := if_pos
      (AList.mem_insert _ |>.mpr (Or.inl rfl))
  have clrType : clr.type = .clr := by rw [compensates.clr_eq]
  have table : (phaseAnalysis [update, clr] none).1.dirtyPageTable =
      AList.insert update.pageId update.lsn ∅ := by
    simp only [phaseAnalysis, List.foldl_cons, List.foldl_nil, analyze,
      compensates.type_eq, clrType, sameClr]
    rw [if_pos (show 4 ≤ update.getPayloadSize by omega), first, second, ite_self]
  refine ⟨table, ?_⟩
  have start : DirtyPageTable.getRedoStartLsn
      (phaseAnalysis [update, clr] none).1.dirtyPageTable = update.lsn := by
    rw [table]
    change min update.lsn (2 ^ 64 - 1) = update.lsn
    omega
  change (if LSN.isValid (DirtyPageTable.getRedoStartLsn
    (phaseAnalysis [update, clr] none).1.dirtyPageTable) then _ else _) = _
  split_ifs
  · exact start
  · exact start

theorem Compensates.phaseRedo (typed : update.lsn < 2 ^ 64) {pages : PageStore} {page : PageImage}
    (fetched : pages update.pageId = some page) :
    RecoveryManager.phaseRedo (phaseAnalysis [update, clr] none).1.dirtyPageTable
        (phaseAnalysis [update, clr] none).2 [update, clr] pages update.pageId =
      some (redoPage page update) := by
  obtain ⟨table, start⟩ := compensates.analysis typed
  rw [table, start, RecoveryManager.phaseRedo, redoRecords]
  by_cases valid : LSN.isValid update.lsn = true
  · have all : seekToLsn [update, clr] update.lsn = some [update, clr] := by simp [seekToLsn]
    have considered : Considered (AList.insert update.pageId update.lsn ∅)
        update := by
      refine ⟨?_, ?_, ?_, ?_⟩
      · rw [LogRecord.isPhysical, compensates.type_eq]
      · have long := compensates.images
        omega
      · exact (AList.mem_insert _).mpr (Or.inl rfl)
      · rw [DirtyPageTable.getRecLsn, AList.lookup_insert]
        exact le_rfl
    have unfit : RecoveryManager.redoable clr = false := by
      rw [RecoveryManager.redoable, compensates.clr_eq]
      rfl
    have idle (later : PageImage) : redoOn
        (AList.insert update.pageId update.lsn ∅) update.pageId later clr =
          later := by
      rw [redoOn]
      split_ifs
      · exact redoPage_of_settled (Or.inl unfit)
      · rfl
    rw [if_pos valid, all, Option.getD_some, foldl_redoStep_apply, fetched, Option.map_some,
      List.foldl_cons, List.foldl_cons, List.foldl_nil, idle, redoOn, if_pos ⟨rfl, considered⟩]
  · have zero : update.lsn = 0 := by simpa [LSN.isValid] using valid
    rw [if_neg valid, List.foldl_nil, fetched, redoPage_of_settled (Or.inr (by omega))]

end

end Compensation

/-- Where the range of the update covers the LSN of the page header, its first
image is the LSN of the update. -/
def SparesLsn (update : LogRecord) : Prop :=
  ∀ index, update.offset ≤ index → index < update.offset + update.length → 12 ≤ index → index < 20 →
    update.firstImage[index - update.offset]? = (leBytes 8 update.lsn)[index - 12]?

instance (update : LogRecord) : Decidable (SparesLsn update) :=
  decidable_of_iff (∀ index < 20, update.offset ≤ index →
      index < update.offset + update.length → 12 ≤ index →
      update.firstImage[index - update.offset]? = (leBytes 8 update.lsn)[index - 12]?)
    ⟨fun spares index first last low high =>
        spares index high first last low,
      fun spares index high first last low =>
        spares index first last low high⟩

/-- After redo of an update the page holds its first image, up to the LSN
field. -/
theorem holdsAt_redone_iff {update : LogRecord} {page : PageImage}
    (length : update.firstImage.length = update.length)
    (inside : update.offset + update.length ≤ page.data.length) :
    ((page.poke update.offset update.firstImage).setLsn update.lsn).HoldsAt
        update.offset update.firstImage ↔ SparesLsn update := by
  have header : 36 ≤ page.data.length := page.size_le
  have size : (page.poke update.offset update.firstImage).data.length = page.data.length := by
    rw [PageImage.poke, length_poke]
  have inLsn (index : Nat) (low : 12 ≤ index) (high : index < 20) : ((page.poke update.offset
      update.firstImage).setLsn update.lsn).data[index]? = (leBytes 8 update.lsn)[index - 12]? := by
    rw [PageImage.data_setLsn]
    exact getElem?_poke_inside low (by rw [length_leBytes]; omega) (by omega)
  have inRange (index : Nat) (first : update.offset ≤ index)
      (last : index < update.offset + update.length) (outside : index < 12 ∨ 20 ≤ index) :
      ((page.poke update.offset update.firstImage).setLsn update.lsn).data[index]? =
      update.firstImage[index - update.offset]? := by
    rw [PageImage.data_setLsn, writeNat, getElem?_poke_outside (by
      rw [length_leBytes]
      omega)]
    exact getElem?_poke_inside first (by omega) (by omega)
  generalize (page.poke update.offset update.firstImage).setLsn update.lsn = redone at inLsn inRange
  constructor
  · intro holds index first last low high
    have byte := congrArg (fun bytes => bytes[index - update.offset]?) holds
    rw [getElem?_slice, if_pos (by omega), Nat.add_sub_cancel' first, inLsn index low high] at byte
    exact byte.symm
  intro spares
  apply List.ext_getElem?
  intro index
  rw [getElem?_slice]
  split_ifs with bound
  · by_cases covered : 12 ≤ update.offset + index ∧ update.offset + index < 20
    · rw [inLsn _ covered.1 covered.2]
      have agrees := spares (update.offset + index) (by omega) (by omega) covered.1 covered.2
      rw [Nat.add_sub_cancel_left] at agrees
      exact agrees.symm
    · rw [inRange _ (by omega) (by omega) (by omega), Nat.add_sub_cancel_left]
  · exact (List.getElem?_eq_none (by omega)).symm

/-- A second recovery restores the image from before an undone update exactly
if the update has not reached the disk, or its undo has. -/
theorem compensation_survives_iff (state : UndoState)
    (update clr : LogRecord) (typed : update.lsn < 2 ^ 64)
    (undone : (undoRecord state update).appended = state.appended ++ [clr])
    (pages : PageStore) (page : PageImage) (fetched : pages update.pageId = some page)
    (inside : update.offset + update.length ≤ page.data.length) :
    (∃ redone, phaseRedo (phaseAnalysis [update, clr] none).1.dirtyPageTable
          (phaseAnalysis [update, clr] none).2 [update, clr] pages update.pageId = some redone ∧
        redone.HoldsAt update.offset update.firstImage) ↔
      page.lsn < update.lsn ∧ SparesLsn update ∨
        update.lsn ≤ page.lsn ∧ page.HoldsAt update.offset update.firstImage := by
  have compensates := compensates_of_appended undone
  rw [compensates.phaseRedo typed fetched]
  simp only [Option.some.injEq, exists_eq_left']
  rw [redoPage]
  by_cases applied : update.lsn ≤ page.lsn
  · rw [if_pos applied]
    constructor
    · exact fun holds => Or.inr ⟨applied, holds⟩
    · rintro (⟨older, _⟩ | ⟨_, holds⟩)
      · omega
      · exact holds
  rw [if_neg applied, if_pos compensates.redoable,
    holdsAt_redone_iff compensates.firstImage_length inside]
  constructor
  · exact fun spares => Or.inl ⟨Nat.not_le.mp applied, spares⟩
  · rintro (⟨_, spares⟩ | ⟨newer, _⟩)
    · exact spares
    · exact absurd newer applied

def lastByteUpdate : LogRecord where
  lsn := 5
  txnId := 1
  type := .update
  payload := LogRecord.updatePayload 1 39 [0] [7]

def lastByteCompensation : LogRecord where
  lsn := 6
  txnId := 1
  type := .clr
  payload := [1, 0, 0, 0, 39, 0, 1, 0, 0]

def pageWith (lsn : Nat) (last : UInt8) : PageImage :=
  (zeroPage.poke 39 [last]).setLsn lsn

/-- The update has not reached the disk. -/
theorem compensation_survives_unwritten :
    ∃ redone, phaseRedo (phaseAnalysis [lastByteUpdate, lastByteCompensation] none).1.dirtyPageTable
        (phaseAnalysis [lastByteUpdate, lastByteCompensation] none).2
        [lastByteUpdate, lastByteCompensation] (fun _ => some (pageWith 0 0))
        lastByteUpdate.pageId = some redone ∧
      redone.HoldsAt lastByteUpdate.offset lastByteUpdate.firstImage := by
  refine (compensation_survives_iff ⟨fun _ => some (pageWith 5 7), 6, []⟩ lastByteUpdate
    lastByteCompensation (by decide) (by decide) _ (pageWith 0 0) rfl (by decide)).mpr (Or.inl ?_)
  decide

/-- The update has reached the disk and its undo has not: after the second
recovery the page still holds the new value. -/
theorem compensation_lost :
    (undoRecord ⟨fun _ => some (pageWith 5 7), 6, []⟩
        lastByteUpdate).appended = [lastByteCompensation] ∧
      (pageWith 5 7).lsn = 5 ∧ lastByteUpdate.firstImage = [0] ∧
      (phaseRedo (phaseAnalysis [lastByteUpdate, lastByteCompensation] none).1.dirtyPageTable
          (phaseAnalysis [lastByteUpdate, lastByteCompensation] none).2
          [lastByteUpdate, lastByteCompensation] (fun _ => some (pageWith 5 7)) 1).map
        (fun page => slice page.data 39 1) = some [7] := by decide

end RecoveryManager

end KlyroDB
