import Mathlib.Data.List.Basic
import Mathlib.Tactic.Ring

/-!
# Byte memories

Little-endian integers and byte ranges of a memory of fixed length.
-/

namespace ByteMemory

/-- The `width` low-order bytes of a number, least significant first. -/
def leBytes : Nat → Nat → List UInt8
  | 0, _ => []
  | width + 1, value => UInt8.ofNat value :: leBytes width (value / 256)

def leNat : List UInt8 → Nat
  | [] => 0
  | byte :: bytes => byte.toNat + 256 * leNat bytes

@[simp] theorem length_leBytes (width value : Nat) : (leBytes width value).length = width := by
  induction width generalizing value with
  | zero => rfl
  | succ width ih => simp [leBytes, ih]

theorem leNat_leBytes (width value : Nat) : leNat (leBytes width value) = value % 256 ^ width := by
  induction width generalizing value with
  | zero => simp [leBytes, leNat, Nat.mod_one]
  | succ width ih =>
    have low : (UInt8.ofNat value).toNat = value % 256 := UInt8.toNat_ofNat'
    rw [leBytes, leNat, ih, low, pow_succ' 256 width, Nat.mod_mul]

theorem leNat_lt (bytes : List UInt8) : leNat bytes < 256 ^ bytes.length := by
  induction bytes with
  | nil => simp [leNat]
  | cons byte bytes ih =>
    have small : byte.toNat < 256 := byte.toNat_lt
    rw [leNat, List.length_cons, pow_succ]
    omega

theorem leBytes_leNat (bytes : List UInt8) : leBytes bytes.length (leNat bytes) = bytes := by
  induction bytes with
  | nil => rfl
  | cons byte bytes ih =>
    have small : byte.toNat < 256 := byte.toNat_lt
    have high : (byte.toNat + 256 * leNat bytes) / 256 = leNat bytes := by omega
    have low : UInt8.ofNat (byte.toNat + 256 * leNat bytes) = byte := by
      apply UInt8.toNat.inj
      rw [UInt8.toNat_ofNat']
      omega
    rw [List.length_cons, leNat, leBytes, high, low, ih]

/-- The bytes of a range, as far as the memory reaches. -/
def slice (memory : List UInt8) (offset length : Nat) : List UInt8 :=
  (memory.drop offset).take length

/-- Overwrites a range, as far as the memory reaches. -/
def poke (memory : List UInt8) (offset : Nat) (data : List UInt8) : List UInt8 :=
  memory.mapIdx fun index old =>
    if offset ≤ index then data.getD (index - offset) old else old

@[simp] theorem length_poke (memory : List UInt8) (offset : Nat)
    (data : List UInt8) : (poke memory offset data).length = memory.length := by simp [poke]

variable {memory data first second : List UInt8} {offset length start width : Nat}

theorem length_slice (inside : offset + length ≤ memory.length) :
    (slice memory offset length).length = length := by
  simp [slice]
  omega

theorem getElem?_slice (memory : List UInt8) (offset length index : Nat) :
    (slice memory offset length)[index]? =
      if index < length then memory[offset + index]? else none := by
  simp [slice, List.getElem?_take]

theorem getElem?_poke (memory : List UInt8) (offset : Nat) (data : List UInt8) (index : Nat) :
    (poke memory offset data)[index]? =
      memory[index]?.map fun old =>
        if offset ≤ index then data.getD (index - offset) old else old := by simp [poke]

theorem getElem?_poke_outside {index : Nat}
    (outside : index < offset ∨ offset + data.length ≤ index) :
    (poke memory offset data)[index]? = memory[index]? := by
  rw [getElem?_poke]
  cases memory[index]? with
  | none => rfl
  | some old =>
    rcases outside with before | after
    · simp [Nat.not_le.mpr before]
    · have beyond : data.length ≤ index - offset := by omega
      simp [List.getElem?_eq_none beyond]

theorem getElem?_poke_inside {index : Nat} (after : offset ≤ index)
    (before : index < offset + data.length) (inside : index < memory.length) :
    (poke memory offset data)[index]? = data[index - offset]? := by
  have bound : index - offset < data.length := by omega
  rw [getElem?_poke, List.getElem?_eq_getElem inside, List.getElem?_eq_getElem bound]
  simp [after, List.getElem?_eq_getElem bound]

theorem slice_congr (same : ∀ index, offset ≤ index → index < offset + length →
      first[index]? = second[index]?) : slice first offset length = slice second offset length := by
  apply List.ext_getElem?
  intro index
  rw [getElem?_slice, getElem?_slice]
  split_ifs with bound
  · exact same _ (by omega) (by omega)
  · rfl

/-- The frame rule. -/
theorem slice_poke_of_disjoint (apart : start + length ≤ offset ∨ offset + data.length ≤ start) :
    slice (poke memory offset data) start length = slice memory start length :=
  slice_congr fun _ _ _ => getElem?_poke_outside (by omega)

theorem slice_poke_same {memory : List UInt8} {offset : Nat}
    {data : List UInt8} (inside : offset + data.length ≤ memory.length) :
    slice (poke memory offset data) offset data.length = data := by
  apply List.ext_getElem?
  intro index
  rw [getElem?_slice]
  split_ifs with bound
  · rw [getElem?_poke_inside (by omega) (by omega) (by omega)]
    simp
  · exact (List.getElem?_eq_none (by omega)).symm

theorem slice_append_middle (first middle last : List UInt8) :
    slice (first ++ (middle ++ last)) first.length middle.length = middle := by simp [slice]

theorem poke_append_middle {middle last : List UInt8} (same : data.length = middle.length) :
    poke (first ++ (middle ++ last)) first.length data = first ++ (data ++ last) := by
  apply List.ext_getElem?
  intro index
  by_cases before : index < first.length
  · rw [getElem?_poke_outside (Or.inl before), List.getElem?_append_left before,
      List.getElem?_append_left before]
  have after := Nat.le_of_not_lt before
  rw [List.getElem?_append_right after]
  by_cases within : index - first.length < data.length
  · rw [getElem?_poke_inside after (by omega) (by simp; omega), List.getElem?_append_left within]
  · have beyond := Nat.le_of_not_lt within
    rw [getElem?_poke_outside (by omega), List.getElem?_append_right after,
      List.getElem?_append_right beyond, List.getElem?_append_right (by omega), same]

theorem poke_behind {done rest data : List UInt8} {offset : Nat}
    (place : offset = done.length) (room : data.length ≤ rest.length) :
    poke (done ++ rest) offset data = done ++ data ++ rest.drop data.length := by
  have split := (List.take_append_drop data.length rest).symm
  have taken : data.length = (rest.take data.length).length := by
    rw [List.length_take]
    omega
  rw [place]
  conv_lhs => rw [split]
  rw [poke_append_middle taken, List.append_assoc]

theorem slice_slice {count : Nat} (inside : start + count ≤ length) :
    slice (slice memory offset length) start count = slice memory (offset + start) count := by
  apply List.ext_getElem?
  intro index
  rw [getElem?_slice, getElem?_slice, getElem?_slice]
  split_ifs with bound within
  · rw [Nat.add_assoc]
  · omega
  · rfl

def readNat (memory : List UInt8) (offset width : Nat) : Nat :=
  leNat (slice memory offset width)

def writeNat (memory : List UInt8) (offset width value : Nat) : List UInt8 :=
  poke memory offset (leBytes width value)

@[simp] theorem length_writeNat (memory : List UInt8) (offset width value : Nat) :
    (writeNat memory offset width value).length = memory.length :=
  length_poke _ _ _

theorem readNat_writeNat (value : Nat) (inside : offset + width ≤ memory.length) :
    readNat (writeNat memory offset width value) offset width = value % 256 ^ width := by
  have same := @slice_poke_same memory offset (leBytes width value) (by simpa using inside)
  rw [length_leBytes] at same
  rw [readNat, writeNat, same, leNat_leBytes]

theorem readNat_poke_of_disjoint (apart : start + width ≤ offset ∨ offset + data.length ≤ start) :
    readNat (poke memory offset data) start width = readNat memory start width := by
  rw [readNat, slice_poke_of_disjoint apart, readNat]

section

variable (value : Nat) (apart : start + length ≤ offset ∨ offset + width ≤ start)

include value apart

theorem readNat_writeNat_of_disjoint :
    readNat (writeNat memory offset width value) start length = readNat memory start length :=
  readNat_poke_of_disjoint (by simpa using apart)

theorem slice_writeNat_of_disjoint :
    slice (writeNat memory offset width value) start length = slice memory start length :=
  slice_poke_of_disjoint (by simpa using apart)

end

theorem poke_slice_self (inside : offset + length ≤ memory.length) :
    poke memory offset (slice memory offset length) = memory := by
  apply List.ext_getElem?
  intro index
  by_cases within : offset ≤ index ∧ index < offset + length
  · rw [getElem?_poke_inside within.1 (by rw [length_slice inside]; omega)
      (by omega), getElem?_slice, if_pos (by omega)]
    congr 1
    omega
  · apply getElem?_poke_outside
    rw [length_slice inside]
    omega

theorem leBytes_readNat (inside : offset + width ≤ memory.length) :
    leBytes width (readNat memory offset width) = slice memory offset width := by
  have round := leBytes_leNat (slice memory offset width)
  rwa [length_slice inside] at round

theorem writeNat_eq_self {memory : List UInt8} {offset width value : Nat}
    (inside : offset + width ≤ memory.length) (same : readNat memory offset width = value) :
    writeNat memory offset width value = memory := by
  rw [writeNat, ← same, leBytes_readNat inside]
  exact poke_slice_self inside

/-- The last write to a range wins. -/
theorem poke_poke (same : first.length = second.length) :
    poke (poke memory offset first) offset second = poke memory offset second := by
  apply List.ext_getElem?
  intro index
  rw [getElem?_poke, getElem?_poke, getElem?_poke, Option.map_map]
  congr 1
  funext old
  by_cases after : offset ≤ index
  · by_cases within : index - offset < second.length
    · simp [after, List.getElem?_eq_getElem within]
    · have beyond : first.length ≤ index - offset := by omega
      simp [after, List.getElem?_eq_none beyond]
  · simp [after]

theorem writeNat_writeNat (memory : List UInt8) (offset width first second : Nat) :
    writeNat (writeNat memory offset width first) offset width second =
      writeNat memory offset width second :=
  poke_poke (by simp)

theorem readNat_congr (same : ∀ index, offset ≤ index → index < offset + width →
      first[index]? = second[index]?) :
    readNat first offset width = readNat second offset width := by
  rw [readNat, slice_congr same, readNat]

section Fields

variable {first rest : List UInt8} {offset : Nat}

theorem slice_append_of_le (behind : first.length ≤ offset) (length : Nat) :
    slice (first ++ rest) offset length = slice rest (offset - first.length) length := by
  rw [slice, slice, List.drop_append, List.drop_of_length_le behind, List.nil_append]

theorem readNat_append_of_le (behind : first.length ≤ offset) (width : Nat) :
    readNat (first ++ rest) offset width = readNat rest (offset - first.length) width := by
  rw [readNat, slice_append_of_le behind, readNat]

theorem slice_append_left {length : Nat} (size : first.length = length) :
    slice (first ++ rest) 0 length = first := by
  rw [slice, List.drop_zero, List.take_left' size]

theorem readNat_leBytes (width value : Nat) (rest : List UInt8) :
    readNat (leBytes width value ++ rest) 0 width = value % 256 ^ width := by
  rw [readNat, slice_append_left (length_leBytes _ _), leNat_leBytes]

end Fields

theorem readNat_append (first last : List UInt8) {width value : Nat} (small : value < 256 ^ width) :
    readNat (first ++ (leBytes width value ++ last)) first.length width = value := by
  rw [readNat_append_of_le le_rfl, Nat.sub_self, readNat_leBytes, Nat.mod_eq_of_lt small]

theorem readNat_lt (offset width : Nat) : readNat memory offset width < 256 ^ width := by
  have bound := leNat_lt (slice memory offset width)
  have short : (slice memory offset width).length ≤ width := by simp [slice]
  exact lt_of_lt_of_le bound (Nat.pow_le_pow_right (by norm_num) short)

end ByteMemory
