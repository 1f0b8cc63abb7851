import KlyroDB.RedoIdempotence

/-!
# The images of update records

`redo_record` and `undo_record` both copy the image that comes first in the
payload, which is the one from before the change.
-/

namespace KlyroDB

open ByteMemory

namespace LogRecord

def updatePayload (pageId offset : Nat) (before after : List UInt8) : List UInt8 :=
  leBytes 4 pageId ++ (leBytes 2 offset ++ (leBytes 2 before.length ++ (before ++ after)))

/-- An update record over a range of a page. -/
structure Updates (record : LogRecord) (pageId offset : Nat)
    (before after : List UInt8) : Prop where
  type_eq : record.type = .update
  payload_eq : record.payload = updatePayload pageId offset before after
  page_lt : pageId < 2 ^ 32
  offset_lt : offset < 2 ^ 16
  length_lt : before.length < 2 ^ 16
  length_eq : after.length = before.length

section Updates

variable {record : LogRecord} {pageId offset : Nat} {before after : List UInt8}

section

variable (updates : record.Updates pageId offset before after)

include updates

theorem Updates.pageId_eq : record.pageId = pageId := by
  rw [LogRecord.pageId, updates.payload_eq, updatePayload, readNat_leBytes]
  exact Nat.mod_eq_of_lt updates.page_lt

theorem Updates.offset_eq : record.offset = offset := by
  rw [LogRecord.offset, updates.payload_eq, updatePayload, readNat_append_of_le (by simp)]
  simpa [readNat_leBytes] using updates.offset_lt

theorem Updates.length_field : record.length = before.length := by
  rw [LogRecord.length, updates.payload_eq, updatePayload]
  simpa [readNat_append_of_le, readNat_leBytes] using updates.length_lt

theorem Updates.firstImage_eq : record.firstImage = before := by
  rw [firstImage, updates.length_field, updates.payload_eq, updatePayload]
  simp [slice_append_of_le, slice_append_left]

theorem Updates.getPayloadSize_eq : record.getPayloadSize = 8 + 2 * before.length := by
  have size : record.payload.length = 8 + 2 * before.length := by
    rw [updates.payload_eq, updatePayload]
    simp only [List.length_append, length_leBytes, updates.length_eq]
    omega
  have small := updates.length_lt
  rw [getPayloadSize, size, Nat.mod_eq_of_lt (by omega)]

end

end Updates

end LogRecord

namespace PageImage

def HoldsAt (page : PageImage) (offset : Nat) (bytes : List UInt8) : Prop :=
  slice page.data offset bytes.length = bytes

instance (page : PageImage) (offset : Nat) (bytes : List UInt8) :
    Decidable (page.HoldsAt offset bytes) :=
  inferInstanceAs (Decidable (slice page.data offset bytes.length = bytes))

def SameOutside (page other : PageImage) (offset length : Nat) : Prop :=
  ∀ index, PageHeader.size ≤ index → index < offset ∨ offset + length ≤ index → other.data[index]? =
    page.data[index]?

theorem length_setLsn (page : PageImage) (lsn : Nat) :
    (page.setLsn lsn).data.length = page.data.length := by rw [data_setLsn, length_writeNat]

/-- A range behind the header takes the bytes that are copied to it. -/
theorem holdsAt_poke_setLsn (page : PageImage) {offset : Nat}
    {bytes : List UInt8} (behind : PageHeader.size ≤ offset)
    (inside : offset + bytes.length ≤ page.data.length) (lsn : Nat) :
    ((page.poke offset bytes).setLsn lsn).HoldsAt offset bytes := by
  rw [PageHeader.size] at behind
  rw [HoldsAt, data_setLsn, slice_writeNat_of_disjoint _ (Or.inr (by omega))]
  exact slice_poke_same inside

theorem sameOutside_poke_setLsn (page : PageImage) (offset : Nat) (bytes : List UInt8) (lsn : Nat) :
    page.SameOutside ((page.poke offset bytes).setLsn lsn) offset bytes.length := by
  intro index behind outside
  rw [PageHeader.size] at behind
  rw [data_setLsn, writeNat, getElem?_poke_outside (by
    rw [length_leBytes]
    omega)]
  exact getElem?_poke_outside outside

theorem SameOutside.trans {first second third : PageImage}
    {offset length : Nat} (early : first.SameOutside second offset length)
    (late : second.SameOutside third offset length) : first.SameOutside third offset length :=
  fun index behind outside =>
    (late index behind outside).trans (early index behind outside)

end PageImage

namespace RecoveryManager

/-- Redo leaves the second image in the range, a following undo the first one,
and neither touches other payload bytes. -/
def InvertsImages (dirtyPages : DirtyPageTable) (pages : PageStore) (page : PageImage)
    (nextLsn : Nat) (record : LogRecord) (pageId offset : Nat) (before after : List UInt8) : Prop :=
  ∃ redone undone, redoRecord dirtyPages pages record pageId = some redone ∧ (undoRecord
    ⟨redoRecord dirtyPages pages record, nextLsn, []⟩ record).pages pageId = some undone ∧
    redone.HoldsAt offset after ∧ undone.HoldsAt offset before ∧ page.SameOutside redone offset
    before.length ∧ page.SameOutside undone offset before.length

section Images

variable {record : LogRecord} {pageId offset : Nat}
  {before after : List UInt8} {pages : PageStore} {page : PageImage}

/-- Redo leaves the image from before the change, whether or not it applies
the record. -/
theorem redoRecord_holds_before (updates : record.Updates pageId offset before after)
    (fetched : pages pageId = some page) (behind : PageHeader.size ≤ offset)
    (inside : offset + before.length ≤ page.data.length)
    (current : page.HoldsAt offset before) (dirtyPages : DirtyPageTable) :
    ∃ redone, redoRecord dirtyPages pages record pageId = some redone ∧
      redone.HoldsAt offset before ∧
      page.SameOutside redone offset before.length ∧ redone.data.length = page.data.length := by
  have unchanged : page.SameOutside page offset before.length := fun _ _ _ => rfl
  unfold redoRecord
  rw [updates.pageId_eq]
  split_ifs with short dirty early
  · exact ⟨page, fetched, current, unchanged, rfl⟩
  · exact ⟨page, fetched, current, unchanged, rfl⟩
  · rw [fetched]
    dsimp only
    rw [Function.update_self]
    refine ⟨_, rfl, ?_⟩
    unfold redoPage
    rw [updates.offset_eq, updates.firstImage_eq]
    split_ifs with applied long
    · exact ⟨current, unchanged, rfl⟩
    · refine ⟨page.holdsAt_poke_setLsn behind inside _, page.sameOutside_poke_setLsn _ _ _, ?_⟩
      rw [PageImage.length_setLsn, PageImage.poke, length_poke]
    · exact ⟨current, unchanged, rfl⟩
  · exact ⟨page, fetched, current, unchanged, rfl⟩

theorem undoRecord_page (updates : record.Updates pageId offset before after)
    {state : UndoState} (fetched : state.pages pageId = some page) :
    (undoRecord state record).pages pageId =
      some ((page.poke offset before).setLsn state.nextLsn) := by
  have size := updates.getPayloadSize_eq
  have length := updates.length_field
  unfold undoRecord
  rw [if_neg (by omega), updates.pageId_eq, fetched]
  dsimp only
  rw [if_neg (not_not_intro updates.type_eq), if_neg (by omega),
    updates.offset_eq, updates.firstImage_eq]
  exact Function.update_self ..

end Images

/-- Redo and undo of an update apply its two images exactly if the images are
the same. -/
theorem inverts_images_iff (dirtyPages : DirtyPageTable) (pages : PageStore)
    (page : PageImage) (nextLsn : Nat) (record : LogRecord)
    (pageId offset : Nat) (before after : List UInt8)
    (updates : record.Updates pageId offset before after) (fetched : pages pageId = some page)
    (behind : PageHeader.size ≤ offset) (inside : offset + before.length ≤ page.data.length)
    (current : page.HoldsAt offset before) :
    InvertsImages dirtyPages pages page nextLsn record pageId offset before after ↔
      before = after := by
  obtain ⟨redone, result, holds, outside, length⟩ := redoRecord_holds_before
    updates fetched behind inside current dirtyPages
  constructor
  · rintro ⟨other, undone, found, _, applied, _⟩
    rw [result] at found
    cases found
    rw [PageImage.HoldsAt, updates.length_eq] at applied
    exact holds.symm.trans applied
  intro same
  have undo := undoRecord_page updates (show (UndoState.mk (redoRecord dirtyPages pages record)
    nextLsn []).pages pageId = some redone from result)
  refine ⟨redone, _, result, undo, same ▸ holds, ?_, outside, ?_⟩
  · exact redone.holdsAt_poke_setLsn behind (length ▸ inside) _
  · exact outside.trans (redone.sameOutside_poke_setLsn _ _ _)

def zeroPage : PageImage := ⟨List.replicate 40 0, by decide⟩

/-- An update of the last payload byte that changes nothing. -/
theorem inverts_images_unchanged :
    InvertsImages (AList.insert 1 5 ∅) (fun _ => some zeroPage) zeroPage 6
      { lsn := 5, txnId := 1, type := .update,
        payload := LogRecord.updatePayload 1 39 [0] [0] } 1 39 [0] [0] := by
  refine (inverts_images_iff _ _ zeroPage 6 _ 1 39 [0] [0] ?_ rfl (by decide)
    (by decide) (by decide)).mpr rfl
  exact ⟨rfl, rfl, by decide, by decide, by decide, rfl⟩

/-- An update of the last payload byte from 0 to 7, and a page with an older
LSN that holds 0: redo leaves 0. -/
theorem redo_leaves_before_image :
    ∃ record : LogRecord, record.Updates 1 39 [0] [7] ∧ zeroPage.lsn < record.lsn ∧
      zeroPage.HoldsAt 39 [0] ∧
      (redoRecord (AList.insert 1 5 ∅) (fun _ => some zeroPage) record 1).map
        (fun page => (page.lsn, slice page.data 39 1)) = some (5, [0]) := by
  refine ⟨{ lsn := 5, txnId := 1, type := .update,
            payload := LogRecord.updatePayload 1 39 [0] [7] },
    ⟨rfl, rfl, by decide, by decide, by decide, rfl⟩, by decide, by decide, ?_⟩
  decide

/-! ## The range of the copy -/

/-- The page that `redo_record` copies an image into. -/
def redoTarget (dirtyPages : DirtyPageTable) (pages : PageStore) (record : LogRecord) :
    Option PageImage :=
  if record.getPayloadSize < 4 then none
  else if record.pageId ∉ dirtyPages then none
  else if record.lsn < dirtyPages.getRecLsn record.pageId then none
  else (pages record.pageId).filter fun page => page.lsn < record.lsn && redoable record

/-- The page that `undo_record` copies an image into. -/
def undoneTarget (pages : PageStore) (record : LogRecord) : Option PageImage :=
  if record.getPayloadSize < 4 then none
  else
    (pages record.pageId).filter fun _ =>
      record.type == .update && 8 + record.length * 2 ≤ record.getPayloadSize

section

variable (dirtyPages : DirtyPageTable) (pages : PageStore) (record : LogRecord)

theorem redoRecord_eq :
    redoRecord dirtyPages pages record = (redoTarget dirtyPages pages record).elim pages fun page =>
      Function.update pages record.pageId
        (some ((page.poke record.offset record.firstImage).setLsn record.lsn)) := by
  unfold redoRecord redoTarget
  split_ifs
  · rfl
  · rfl
  · cases fetched : pages record.pageId with
    | none => rfl
    | some page =>
      have kept : Function.update pages record.pageId (some page) = pages := by
        rw [← fetched, Function.update_eq_self]
      simp only [redoPage, ← Nat.not_lt, Option.filter_some]
      by_cases older : page.lsn < record.lsn <;> by_cases fits : redoable record = true <;>
        simp [older, fits, kept]
  · rfl

theorem pages_undoRecord_eq (state : UndoState) :
    (undoRecord state record).pages = (undoneTarget state.pages record).elim state.pages fun page =>
      Function.update state.pages record.pageId
        (some ((page.poke record.offset record.firstImage).setLsn state.nextLsn)) := by
  unfold undoRecord undoneTarget
  by_cases short : record.getPayloadSize < 4
  · simp [short]
  rw [if_neg short, if_neg short]
  cases state.pages record.pageId with
  | none => rfl
  | some page =>
    rw [Option.filter_some]
    by_cases update : record.type = .update <;>
      by_cases fits : 8 + record.length * 2 ≤ record.getPayloadSize <;>
        simp [update, fits, Nat.not_lt.mpr, Nat.lt_of_not_le]

/-- Neither function looks at the size of the page.  Their copies stay inside
it exactly when an update whose range ends behind its page has no room for its
first image, or none for the second one while redo skips the record. -/
theorem copies_inside_iff :
    (∀ page, redoTarget dirtyPages pages record = some page ∨
        undoneTarget pages record = some page → record.offset + record.length ≤ page.data.length) ↔
      ∀ page, pages record.pageId = some page → record.type = .update →
        page.data.length < record.offset + record.length →
          record.getPayloadSize < 8 + record.length ∨
            record.getPayloadSize < 8 + record.length * 2 ∧
              (record.pageId ∉ dirtyPages ∨ record.lsn < dirtyPages.getRecLsn record.pageId ∨
                record.lsn ≤ page.lsn) := by
  have redone (page : PageImage) : redoTarget dirtyPages pages record = some page ↔
      pages record.pageId = some page ∧ record.type = .update ∧
        8 + record.length ≤ record.getPayloadSize ∧ record.pageId ∈ dirtyPages ∧
          ¬record.lsn < dirtyPages.getRecLsn record.pageId ∧ ¬record.lsn ≤ page.lsn := by
    simp only [redoTarget, redoable]
    by_cases update : record.type = .update <;> split_ifs <;>
      simp [Option.filter_eq_some_iff, *] <;> omega
  have undone (page : PageImage) : undoneTarget pages record = some page ↔
      pages record.pageId = some page ∧ record.type = .update ∧
        8 + record.length * 2 ≤ record.getPayloadSize := by
    simp only [undoneTarget]
    split_ifs <;> simp [Option.filter_eq_some_iff]
    omega
  apply forall_congr'
  intro page
  rw [redone, undone]
  by_cases fetched : pages record.pageId = some page <;>
    by_cases update : record.type = .update <;>
      by_cases dirty : record.pageId ∈ dirtyPages <;> simp [fetched, update, dirty] <;> omega

end

/-- An update at the largest offset, and a page of 40 bytes. -/
theorem copies_behind_page :
    ∃ record : LogRecord, record.Updates 1 65535 [0] [7] ∧
      redoTarget (AList.insert 1 5 ∅) (fun _ => some zeroPage) record = some zeroPage ∧
      undoneTarget (fun _ => some zeroPage) record = some zeroPage ∧
      zeroPage.data.length < record.offset + record.length := by
  refine ⟨{ lsn := 5, txnId := 1, type := .update,
            payload := LogRecord.updatePayload 1 65535 [0] [7] },
    ⟨rfl, rfl, by decide, by decide, by decide, rfl⟩, rfl, rfl, by decide⟩

end RecoveryManager

end KlyroDB
