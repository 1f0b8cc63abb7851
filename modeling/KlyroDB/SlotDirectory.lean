import KlyroDB.ByteMemory
import Mathlib.Algebra.BigOperators.Group.List.Basic
import Mathlib.Data.List.Nodup

/-!
# Slot directories

A memory that starts with a directory of fixed-size slots and holds records of
varying length at its end.  Offsets may count from a point some bytes before
the memory.  Repacking moves the record with the largest offset first.
-/

open ByteMemory

/-- Where the slots lie: their first byte, their size, the width of the offset
and length fields, and the distance of offsets from memory indices. -/
structure SlotFormat where
  base : Nat
  stride : Nat
  width : Nat
  shift : Nat
  fields_le : 2 * width ≤ stride

namespace SlotFormat

variable (format : SlotFormat)

def position (index : Nat) : Nat := format.base + format.stride * index

def offsetAt (memory : List UInt8) (index : Nat) : Nat :=
  readNat memory (format.position index) format.width

def lengthAt (memory : List UInt8) (index : Nat) : Nat :=
  readNat memory (format.position index + format.width) format.width

/-- The bytes of a range given by its offset. -/
def bytesAt (memory : List UInt8) (offset length : Nat) : List UInt8 :=
  slice memory (offset - format.shift) length

def recordAt (memory : List UInt8) (index : Nat) : List UInt8 :=
  format.bytesAt memory (format.offsetAt memory index) (format.lengthAt memory index)

/-- Copies a range to a target offset and points a slot there. -/
def relocate (memory : List UInt8) (index offset length target : Nat) : List UInt8 :=
  writeNat (poke memory (target - format.shift) (format.bytesAt memory offset length))
    (format.position index) format.width target

/-- Moves one record so that it ends at the cursor.  The cursor has the width
of the fields and wraps around like them. -/
def advance (state : List UInt8 × Nat) (index offset length : Nat) : List UInt8 × Nat :=
  let cursor := (state.2 + 256 ^ format.width - length) % 256 ^ format.width
  if offset = cursor then (state.1, cursor)
  else (format.relocate state.1 index offset length cursor, cursor)

/-- Repacks the records of the given slots from the given end downwards. -/
def repack (indices : List Nat) (limit : Nat) (memory : List UInt8) : List UInt8 × Nat :=
  indices.foldl
    (fun state index => format.advance state index
      (format.offsetAt state.1 index) (format.lengthAt state.1 index))
    (memory, limit)

variable {format}

theorem position_add_stride_le {first second : Nat} (before : first < second) :
    format.position first + format.stride ≤ format.position second := by
  have scaled := Nat.mul_le_mul_left format.stride before
  rw [Nat.mul_succ] at scaled
  unfold position
  omega

theorem position_le {index count : Nat} (bound : index < count) :
    format.position index + 2 * format.width ≤ format.position count := by
  have next := @position_add_stride_le format _ _ bound
  have fields := format.fields_le
  omega

theorem position_apart {first second : Nat} (ne : first ≠ second) :
    format.position first + 2 * format.width ≤ format.position second ∨
      format.position second + 2 * format.width ≤ format.position first := by
  rcases Nat.lt_or_gt_of_ne ne with before | after
  · exact Or.inl (position_le before)
  · exact Or.inr (position_le after)

/-- The records of the slots in use lie between two offsets, apart from each
other. -/
structure Laid (format : SlotFormat) (memory : List UInt8)
    (used : Nat → Prop) (low limit : Nat) : Prop where
  low_le : ∀ index, used index → low ≤ format.offsetAt memory index
  end_le : ∀ index, used index → format.offsetAt memory index + format.lengthAt memory index ≤ limit
  apart : ∀ first second, used first → used second → first ≠ second → format.offsetAt memory first +
    format.lengthAt memory first ≤ format.offsetAt memory second ∨ format.offsetAt memory second +
    format.lengthAt memory second ≤ format.offsetAt memory first

/-- A directory with the given number of slots ends below the records, and
the records end within the memory. -/
structure Room (format : SlotFormat) (memory : List UInt8) (count low limit : Nat) : Prop where
  directory_le : format.position count + format.shift ≤ low
  limit_le : limit ≤ memory.length + format.shift
  limit_lt : limit < 256 ^ format.width

section

variable {memory changed : List UInt8} {used nowUsed : Nat → Prop}

theorem Laid.shorten {low limit : Nat} (laid : format.Laid memory used low limit)
    (kept : ∀ index, nowUsed index → used index ∧
      format.offsetAt changed index = format.offsetAt memory index ∧
      format.lengthAt changed index ≤ format.lengthAt memory index) :
    format.Laid changed nowUsed low limit := by
  constructor
  case low_le =>
    intro index mem
    obtain ⟨old, sameOffset, _⟩ := kept index mem
    rw [sameOffset]
    exact laid.low_le index old
  case end_le =>
    intro index mem
    obtain ⟨old, sameOffset, shorter⟩ := kept index mem
    have high := laid.end_le index old
    omega
  case apart =>
    intro first second firstMember secondMember ne
    obtain ⟨firstOld, firstOffset, firstShorter⟩ := kept first firstMember
    obtain ⟨secondOld, secondOffset, secondShorter⟩ := kept second secondMember
    have separate := laid.apart first second firstOld secondOld ne
    omega

/-- A record placed directly below the others keeps them apart. -/
theorem Laid.push {index low target limit : Nat} (laid : format.Laid memory used low limit)
    (others : ∀ other, nowUsed other → other ≠ index → used other ∧
      format.offsetAt changed other = format.offsetAt memory other ∧
      format.lengthAt changed other = format.lengthAt memory other)
    (placed : format.offsetAt changed index = target)
    (ends : target + format.lengthAt changed index ≤ low) (order : low ≤ limit) :
    format.Laid changed nowUsed target limit := by
  constructor
  case low_le =>
    intro other mem
    by_cases same : other = index
    · subst same
      exact le_of_eq placed.symm
    · obtain ⟨old, sameOffset, _⟩ := others other mem same
      have high := laid.low_le other old
      omega
  case end_le =>
    intro other mem
    by_cases same : other = index
    · subst same
      omega
    · obtain ⟨old, sameOffset, sameLength⟩ := others other mem same
      have high := laid.end_le other old
      omega
  case apart =>
    intro first second firstMember secondMember ne
    by_cases firstNew : first = index
    · subst firstNew
      obtain ⟨old, sameOffset, _⟩ := others second secondMember (Ne.symm ne)
      have high := laid.low_le second old
      omega
    obtain ⟨firstOld, firstOffset, firstLength⟩ := others first firstMember firstNew
    by_cases secondNew : second = index
    · subst secondNew
      have high := laid.low_le first firstOld
      omega
    · obtain ⟨secondOld, secondOffset, secondLength⟩ := others second secondMember secondNew
      have separate := laid.apart first second firstOld secondOld ne
      rw [firstOffset, firstLength, secondOffset, secondLength]
      exact separate

end

/-- What the repacking loop keeps: the records of `done` lie above the cursor
with the bytes they had, those of `rest` below it, and nothing else has
changed below the cursor. -/
structure Repacking (format : SlotFormat) (original : List UInt8) (done rest : List Nat)
    (low limit : Nat) (state : List UInt8 × Nat) : Prop where
  length_eq : state.1.length = original.length
  low_le : low ≤ state.2
  total : state.2 + (done.map (format.lengthAt original)).sum = limit
  frame : ∀ address, address + format.shift < state.2 → (∀ index ∈ done, address < format.position
    index ∨ format.position index + format.width ≤ address) → state.1[address]? = original[address]?
  laid : format.Laid state.1 (· ∈ done) state.2 limit
  moved : ∀ index ∈ done, format.recordAt state.1 index = format.recordAt original index
  below : ∀ index ∈ rest, format.offsetAt original index + format.lengthAt original index ≤ state.2

section Relocation

variable {memory : List UInt8} {index offset length target : Nat}

@[simp] theorem length_relocate :
    (format.relocate memory index offset length target).length = memory.length := by
  rw [relocate, length_writeNat, length_poke]

theorem offsetAt_relocate (field : format.position index + format.width ≤ memory.length)
    (small : target < 256 ^ format.width) :
    format.offsetAt (format.relocate memory index offset length target) index = target := by
  rw [offsetAt, relocate, readNat_writeNat _ (by simpa using field), Nat.mod_eq_of_lt small]

section

variable (above : format.shift ≤ offset) (inside : offset + length ≤ memory.length + format.shift)

include above inside

theorem length_bytesAt : (format.bytesAt memory offset length).length = length :=
  length_slice (by omega)

theorem getElem?_relocate {address : Nat} (outside : address < target - format.shift ∨
      target - format.shift + length ≤ address) (other : address < format.position index ∨
      format.position index + format.width ≤ address) :
    (format.relocate memory index offset length target)[address]? = memory[address]? := by
  rw [relocate, writeNat, getElem?_poke_outside (by simpa using other), getElem?_poke_outside]
  rw [length_bytesAt above inside]
  exact outside

section

variable {other : Nat} (low : format.position other + 2 * format.width + format.shift ≤ target)

include low

theorem lengthAt_relocate :
    format.lengthAt (format.relocate memory index offset length target)
      other = format.lengthAt memory other := by
  apply readNat_congr
  intro address after before
  apply getElem?_relocate above inside (by omega)
  by_cases same : index = other
  · subst same
    omega
  · have fields := @position_apart format _ _ same
    omega

theorem offsetAt_relocate_of_ne (ne : other ≠ index) :
    format.offsetAt (format.relocate memory index offset length target)
      other = format.offsetAt memory other := by
  have fields := @position_apart format _ _ ne
  apply readNat_congr
  intro address after before
  exact getElem?_relocate above inside (by omega) (by omega)

end

theorem bytesAt_relocate (low : format.position index + format.width + format.shift ≤ target)
    (high : target + length ≤ memory.length + format.shift) :
    format.bytesAt (format.relocate memory index offset length target)
      target length = format.bytesAt memory offset length := by
  have size := @length_bytesAt format memory _ _ above inside
  have copied := @slice_poke_same memory (target - format.shift)
    (format.bytesAt memory offset length) (by omega)
  rw [size] at copied
  rw [bytesAt, relocate, slice_writeNat_of_disjoint _ (by omega)]
  exact copied

theorem bytesAt_relocate_above {start size : Nat}
    (low : format.position index + format.width + format.shift ≤ target)
    (high : target + length ≤ start) :
    format.bytesAt (format.relocate memory index offset length target)
      start size = format.bytesAt memory start size := by
  apply slice_congr
  intro address after before
  exact getElem?_relocate above inside (by omega) (by omega)

end

/-- Leaving a record where it already ends at the cursor is a relocation to
the place it has. -/
theorem relocate_eq_self (above : format.shift ≤ target)
    (inside : target + length ≤ memory.length + format.shift)
    (field : format.position index + format.width ≤ memory.length)
    (same : format.offsetAt memory index = target) :
    format.relocate memory index target length target = memory := by
  rw [relocate, bytesAt, poke_slice_self (by omega)]
  exact writeNat_eq_self field same

theorem advance_eq {cursor : Nat} (fits : length ≤ cursor) (small : cursor < 256 ^ format.width)
    (above : format.shift ≤ cursor - length) (inside : cursor ≤ memory.length + format.shift)
    (field : format.position index + format.width ≤ memory.length)
    (same : format.offsetAt memory index = offset) :
    format.advance (memory, cursor) index offset length =
      (format.relocate memory index offset length (cursor - length), cursor - length) := by
  have lowered : (cursor + 256 ^ format.width - length) % 256 ^ format.width = cursor - length := by
    rw [Nat.sub_add_comm fits, Nat.add_mod_right, Nat.mod_eq_of_lt]
    omega
  simp only [advance, lowered]
  split_ifs with stays
  · subst stays
    rw [relocate_eq_self above (by omega) field same]
  · rfl

end Relocation

namespace Repacking

variable {original : List UInt8} {done rest : List Nat} {low limit : Nat}
  {state : List UInt8 × Nat} {count : Nat}

section

variable (room : format.Room original count low limit)
  (loop : format.Repacking original done rest low limit state) {index : Nat} (bound : index < count)

include room loop bound

theorem lengthAt_eq : format.lengthAt state.1 index = format.lengthAt original index := by
  have slot := @position_le format _ _ bound
  have directory := room.directory_le
  have cursor := loop.low_le
  apply readNat_congr
  intro address after before
  apply loop.frame address (by omega)
  intro other _
  by_cases same : index = other
  · subst same
    omega
  · have fields := @position_apart format _ _ same
    omega

theorem offsetAt_eq (fresh : index ∉ done) :
    format.offsetAt state.1 index = format.offsetAt original index := by
  have slot := @position_le format _ _ bound
  have directory := room.directory_le
  have cursor := loop.low_le
  apply readNat_congr
  intro address after before
  apply loop.frame address (by omega)
  intro other mem
  have ne : index ≠ other := by
    rintro rfl
    exact fresh mem
  have fields := @position_apart format _ _ ne
  omega

end

theorem start (laid : format.Laid original (· ∈ rest) low limit) (order : low ≤ limit) :
    format.Repacking original [] rest low limit (original, limit) where
  length_eq := rfl
  low_le := order
  total := rfl
  frame := fun _ _ _ => rfl
  laid := by
    constructor
    all_goals
      intros
      contradiction
  moved := by
    intro index mem
    contradiction
  below := laid.end_le

/-- One record moves: the next one in descending order of offsets. -/
theorem step {index : Nat} {memory : List UInt8} {cursor : Nat}
    (room : format.Room original count low limit)
    (source : format.Laid original (· ∈ index :: rest) low limit)
    (inDirectory : ∀ other ∈ index :: done, other < count)
    (fresh : index ∉ done) (later : index ∉ rest) (sorted : ∀ next ∈ rest,
      format.offsetAt original next ≤ format.offsetAt original index)
    (loop : format.Repacking original done (index :: rest) low limit (memory, cursor)) :
    format.Repacking original (index :: done) rest low limit
      (format.advance (memory, cursor) index (format.offsetAt memory index)
        (format.lengthAt memory index)) := by
  have bound : index < count := inDirectory index List.mem_cons_self
  have sameLength := loop.lengthAt_eq room bound
  have sameOffset := loop.offsetAt_eq room bound fresh
  have slot := @position_le format _ _ bound
  obtain ⟨sizeEq, cursorLow, total, frame, laid, moved, below⟩ := loop
  obtain ⟨directory, limitLe, limitLt⟩ := room
  have lowOffset := source.low_le index List.mem_cons_self
  have belowCursor := below index List.mem_cons_self
  dsimp only at *
  rw [sameLength, sameOffset]
  generalize offsetEq : format.offsetAt original index = offset at *
  generalize lengthEq : format.lengthAt original index = length at *
  rw [advance_eq (by omega) (by omega) (by omega) (by omega) (by omega) sameOffset]
  have above : format.shift ≤ offset := by omega
  have inside : offset + length ≤ memory.length + format.shift := by omega
  have targetOffset : format.offsetAt (format.relocate memory index offset length (cursor - length))
      index = cursor - length := offsetAt_relocate (by omega) (by omega)
  have lengths : ∀ other ∈ index :: done, format.lengthAt (format.relocate memory index offset
      length (cursor - length)) other = format.lengthAt memory other := by
    intro other mem
    have place := @position_le format _ _ (inDirectory other mem)
    exact lengthAt_relocate above inside (by omega)
  have offsets : ∀ other ∈ done, format.offsetAt (format.relocate memory index offset length
      (cursor - length)) other = format.offsetAt memory other := by
    intro other mem
    have place := @position_le format _ _ (inDirectory other (List.mem_cons_of_mem _ mem))
    apply offsetAt_relocate_of_ne above inside (by omega)
    rintro rfl
    exact fresh mem
  have untouched : format.bytesAt memory offset length = format.bytesAt original offset length := by
    apply slice_congr
    intro address after before
    apply frame address (by omega)
    intro other mem
    have place := @position_le format _ _ (inDirectory other (List.mem_cons_of_mem _ mem))
    omega
  constructor
  case length_eq => rw [length_relocate, sizeEq]
  case low_le =>
    omega
  case total =>
    rw [List.map_cons, List.sum_cons, lengthEq]
    omega
  case frame =>
    intro address before outside
    rw [getElem?_relocate above inside (by omega) (outside index List.mem_cons_self)]
    exact frame address (by omega) fun other mem =>
      outside other (List.mem_cons_of_mem _ mem)
  case laid =>
    apply laid.push _ targetOffset
    · rw [lengths index List.mem_cons_self, sameLength]
      omega
    · omega
    · intro other mem ne
      have earlier : other ∈ done := (List.mem_cons.mp mem).resolve_left ne
      exact ⟨earlier, offsets other earlier, lengths other mem⟩
  case moved =>
    intro other mem
    rw [recordAt, lengths other mem]
    rcases List.mem_cons.mp mem with rfl | earlier
    · rw [targetOffset, sameLength, bytesAt_relocate above inside (by omega) (by omega), untouched,
        recordAt, offsetEq, lengthEq]
    · have high := laid.low_le other earlier
      rw [offsets other earlier, bytesAt_relocate_above above inside (by omega) (by omega)]
      exact moved other earlier
  case below =>
    intro next mem
    have before := sorted next mem
    have old := below next (List.mem_cons_of_mem _ mem)
    have ne : index ≠ next := by
      rintro rfl
      exact later mem
    have separate := source.apart index next List.mem_cons_self (List.mem_cons_of_mem _ mem) ne
    dsimp only
    omega

theorem run {memory : List UInt8} {cursor : Nat} (room : format.Room original count low limit)
    (source : format.Laid original (· ∈ rest) low limit)
    (inDirectory : ∀ other ∈ done ++ rest, other < count) (distinct : (done ++ rest).Nodup)
    (sorted : rest.Pairwise fun first second =>
      format.offsetAt original second ≤ format.offsetAt original first)
    (loop : format.Repacking original done rest low limit (memory, cursor)) :
    format.Repacking original (rest.reverse ++ done) [] low limit
      (format.repack rest cursor memory) := by
  induction rest generalizing done memory cursor with
  | nil => exact loop
  | cons index rest ih =>
    have swapped : (done ++ index :: rest).Perm (index :: (done ++ rest)) := List.perm_middle
    have apart := List.nodup_cons.mp (swapped.nodup_iff.mp distinct)
    have inside : ∀ other ∈ index :: (done ++ rest), other < count :=
      fun other mem => inDirectory other (swapped.mem_iff.mpr mem)
    rw [List.pairwise_cons] at sorted
    have next := loop.step room source (fun other mem => inside other (by
        simp only [List.mem_cons, List.mem_append] at mem ⊢
        tauto))
      (fun mem => apart.1 (List.mem_append_left _ mem))
      (fun mem => apart.1 (List.mem_append_right _ mem))
      sorted.1
    have remaining : format.Laid original (· ∈ rest) low limit := source.shorten fun _ mem =>
        ⟨List.mem_cons_of_mem _ mem, rfl, le_rfl⟩
    have tail := ih remaining inside (List.nodup_cons.mpr apart) sorted.2 next
    rw [List.reverse_cons, List.append_assoc]
    exact tail

end Repacking

/-- Repacking in descending order of offsets keeps every record. -/
theorem repack_repacking {original : List UInt8} {indices : List Nat}
    {count low limit : Nat} (room : format.Room original count low limit) (order : low ≤ limit)
    (laid : format.Laid original (· ∈ indices) low limit)
    (inDirectory : ∀ index ∈ indices, index < count) (distinct : indices.Nodup)
    (sorted : indices.Pairwise fun first second =>
      format.offsetAt original second ≤ format.offsetAt original first) :
    format.Repacking original indices.reverse [] low limit
      (format.repack indices limit original) := by
  have loop := (Repacking.start laid order).run room laid
    (by simpa using inDirectory) (by simpa using distinct) sorted
  rwa [List.append_nil] at loop

end SlotFormat

/-- A sorting function that puts larger keys first and leaves the order of
equal keys open. -/
structure DescendingSort {α : Type} (key : α → Nat) where
  sort : List α → List α
  perm : ∀ items, (sort items).Perm items
  sorted : ∀ items, (sort items).Pairwise fun first second =>
    key second ≤ key first

namespace DescendingSort

/-- Merge sort is such a function. -/
def merge {α : Type} (key : α → Nat) : DescendingSort key where
  sort := fun items =>
    items.mergeSort fun first second => decide (key second ≤ key first)
  perm := fun items => List.mergeSort_perm items _
  sorted := fun items => by
    have ordered := @List.pairwise_mergeSort α (fun first second => decide (key second ≤ key first))
      (fun first second third => by
        simp only [decide_eq_true_eq]
        omega)
      (fun first second => by
        simp only [Bool.or_eq_true, decide_eq_true_eq]
        omega) items
    simpa using ordered

end DescendingSort
