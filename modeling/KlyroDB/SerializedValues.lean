import KlyroDB.TypeSerializer
import Mathlib.Data.List.Perm.Basic

/-!
# What is read from the bytes of values

A value that is read back from its own bytes is found between other bytes, and
cannot be read from fewer bytes.
-/

namespace KlyroDB

open Value (equalsElements equalsEntries findEntry)
open ByteMemory

theorem bytesLess_iff_lt (left right : List UInt8) :
    bytesLess left right = true ↔ left < right := by
  induction left generalizing right with
  | nil =>
    cases right with
    | nil | cons byte rest => simp [bytesLess]
  | cons byte rest ih =>
    cases right with
    | nil => simp [bytesLess]
    | cons other others =>
      rw [bytesLess, List.cons_lt_cons_iff, Bool.or_eq_true,
        Bool.and_eq_true, decide_eq_true_eq, decide_eq_true_eq, ih]

theorem bytesLess_eq_false_iff_le (left right : List UInt8) :
    bytesLess right left = false ↔ left ≤ right := by
  rw [← Bool.not_eq_true, bytesLess_iff_lt, List.not_lt]

theorem pairwise_mergeSort_bytes {Item : Type} (key : Item → List UInt8) (items : List Item) :
    (items.mergeSort fun left right => !bytesLess (key right) (key left)).Pairwise fun left right =>
        bytesLess (key right) (key left) = false := by
  have sorted := @List.pairwise_mergeSort Item (fun left right => !bytesLess (key right) (key left))
    (by
      intro left middle right
      simp only [Bool.not_eq_true', bytesLess_eq_false_iff_le]
      exact List.le_trans)
    (by
      intro left right
      simp only [Bool.or_eq_true, Bool.not_eq_true', bytesLess_eq_false_iff_le]
      exact List.le_total _ _) items
  exact sorted.imp fun le => by simpa using le

namespace TypeID

def isScalar : TypeID → Bool
  | .boolean | .smallInt | .integer | .bigInt | .real | .double | .numeric
  | .date | .time | .timestamp | .timestampTZ | .interval | .uuid => true
  | _ => false

@[simp] theorem ofCode_code (type : TypeID) : ofCode type.code = some type := by
  cases type <;> rfl

theorem code_lt (type : TypeID) : type.code < 256 ^ 2 := by
  cases type <;> decide

end TypeID

namespace Value

def isCollection : Value → Bool
  | .array _ _ | .dict _ => true
  | _ => false

theorem type_eq_of_equals {left right : Value}
    (equal : left.equals right = true) (present : left.isNull = false) :
    left.type = right.type := by
  unfold equals at equal
  split at equal
  all_goals first
    | rfl
    | simp_all [isNull, type]

theorem length_eq_of_equalsElements {left right : List Value}
    (equal : equalsElements left right = true) : left.length = right.length := by
  induction left generalizing right with
  | nil =>
    cases right with
    | nil => rfl
    | cons value rest => simp [equalsElements] at equal
  | cons value rest ih =>
    cases right with
    | nil => simp [equalsElements] at equal
    | cons other others =>
      rw [equalsElements, Bool.and_eq_true] at equal
      simp [ih equal.2]

end Value

namespace TypeSerializer

/-- The value is equal to the one that is read from its bytes. -/
def RoundTrips (value : Value) : Prop :=
  ∃ bytes read, serialize value = .ok bytes ∧
    deserialize bytes value.type = .ok read ∧ value.equals read = true

variable {bytes : List UInt8} {elements : List Value} {offset : Nat}
  {entries : List (List UInt8 × Value)}

theorem length_serialize_scalar {value : Value}
    (scalar : value.type.isScalar = true) (present : value.isNull = false)
    (written : serialize value = .ok bytes) : bytes.length = neededSize value.type := by
  cases value with
  | null type => simp [Value.isNull] at present
  | string value kind => cases kind <;> simp [Value.type, StringKind.type,
      TypeID.isScalar] at scalar
  | timestamp micros withTz =>
    rw [serialize] at written
    cases written
    cases withTz <;> simp [Value.type, neededSize]
  | uuid value =>
    rw [serialize] at written
    cases written
    simpa [Value.type, neededSize] using value.size_eq
  | bytea value | json root | array type elements | dict entries | enum id label =>
    simp [Value.type, TypeID.isScalar] at scalar
  | _ =>
    rw [serialize] at written
    cases written
    simp [Value.type, neededSize]

inductive ReadAs (inner : List UInt8 → TypeID → Except TypeError Value)
    (bytes : List UInt8) : Value → Prop
  | scalar (value : Value) (scalar : value.type.isScalar = true) (present : value.isNull = false)
      (room : neededSize value.type ≤ bytes.length) : ReadAs inner bytes value
  | string (kind : StringKind) : ReadAs inner bytes (.string bytes kind)
  | bytea : ReadAs inner bytes (.bytea bytes)
  | json : ReadAs inner bytes (.json (.string bytes))
  | array (elements : List Value) (room : 4 ≤ bytes.length) (read : readElements inner bytes
      (readNat bytes 0 4) 4 = .ok elements) : ReadAs inner bytes (.array .invalid elements)
  | dict (entries : List (List UInt8 × Value)) (room : 4 ≤ bytes.length) (read : readEntries inner
      bytes (readNat bytes 0 4) 4 [] = .ok entries) : ReadAs inner bytes (.dict entries)

theorem readAs_of_deserializeWithin {depth : Nat} {type : TypeID} {value : Value}
    (read : deserializeWithin (depth + 1) bytes type = .ok value) :
    ReadAs (deserializeWithin depth) bytes value := by
  unfold deserializeWithin at read
  by_cases short : bytes.length < neededSize type
  · rw [if_pos short] at read
    cases read
  rw [if_neg short] at read
  have room := Nat.le_of_not_lt short
  cases type with
  | char | varChar | text =>
    cases read
    exact .string _
  | bytea =>
    cases read
    exact .bytea
  | json =>
    cases read
    exact .json
  | array =>
    dsimp only at read
    split at read
    · cases read
    · rename_i elements success
      cases read
      exact .array elements room success
  | dict =>
    dsimp only at read
    split at read
    · cases read
    · rename_i entries success
      cases read
      exact .dict entries room success
  | uuid =>
    dsimp only at read
    split_ifs at read
    cases read
    exact .scalar _ rfl rfl room
  | null | enum | invalid => cases read
  | _ =>
    cases read
    exact .scalar _ rfl rfl room

theorem isNull_of_deserializeWithin {depth : Nat} {type : TypeID} {value : Value}
    (read : deserializeWithin (depth + 1) bytes type = .ok value) : value.isNull = false := by
  cases readAs_of_deserializeWithin read with
  | scalar _ _ present => exact present
  | string | bytea | json | array | dict => rfl

def ReadsWhole (value : Value) (written : List UInt8) : Prop :=
  ∀ depth bytes type read, deserializeWithin depth bytes type = .ok read →
    value.equals read = true → written.length ≤ bytes.length

theorem ReadsWhole.intro {value : Value} {written : List UInt8}
    (bound : ∀ depth bytes read, ReadAs (deserializeWithin depth) bytes read →
      value.equals read = true → written.length ≤ bytes.length) : ReadsWhole value written := by
  intro depth bytes type read success equal
  cases depth with
  | zero => cases success
  | succ depth => exact bound depth bytes read (readAs_of_deserializeWithin success) equal

section Elements

variable {inner : List UInt8 → TypeID → Except TypeError Value}

theorem readElement_eq_ok {bytes : List UInt8} {offset next : Nat} {value : Value}
    (success : readElement inner bytes offset = .ok (value, next)) :
    ∃ type size, size < 2 ^ 32 ∧ next = offset + 6 + size ∧
      next ≤ bytes.length ∧ inner (slice bytes (offset + 6) size) type = .ok value := by
  unfold readElement at success
  dsimp only at success
  split_ifs at success with noType noSize short
  split at success
  · cases success
  rename_i type named
  split at success
  · cases success
  · rename_i read found
    cases success
    exact ⟨type, _, readNat_lt _ _, rfl, Nat.le_of_not_lt short, found⟩

theorem readElement_sizedElement (first last bytes : List UInt8)
    (type : TypeID) (small : bytes.length < 2 ^ 32) :
    readElement inner (first ++ (sizedElement type bytes ++ last))
        first.length =
      match inner bytes type with
      | .error failure => .error failure
      | .ok value => .ok (value, first.length + 6 + bytes.length) := by
  have typeCode : readNat (first ++ (sizedElement type bytes ++ last))
      first.length 2 = type.code := by
    rw [sizedElement, List.append_assoc, List.append_assoc]
    exact readNat_append first _ type.code_lt
  have size : readNat (first ++ (sizedElement type bytes ++ last))
      (first.length + 2) 4 = bytes.length := by
    have found := @readNat_append (first ++ leBytes 2 type.code)
      (bytes ++ last) 4 bytes.length small
    simpa [sizedElement, List.append_assoc] using found
  have content : slice (first ++ (sizedElement type bytes ++ last))
      (first.length + 6) bytes.length = bytes := by
    have found := slice_append_middle
      (first ++ (leBytes 2 type.code ++ leBytes 4 bytes.length)) bytes last
    simpa [sizedElement, List.append_assoc] using found
  have long : (first ++ (sizedElement type bytes ++ last)).length =
      first.length + 6 + bytes.length + last.length := by
    simp [sizedElement]
    omega
  unfold readElement
  dsimp only
  rewrite [typeCode, size, content, if_neg (by omega), if_neg (by omega),
    if_neg (by omega), TypeID.ofCode_code]
  rfl

theorem length_append_sizedElement (first bytes : List UInt8) (type : TypeID) :
    (first ++ sizedElement type bytes).length = first.length + 6 + bytes.length := by
  simp [sizedElement]
  omega

theorem readElements_succ_eq_ok {bytes : List UInt8} {count offset : Nat} {read : List Value}
    (success : readElements inner bytes (count + 1) offset = .ok read) :
    ∃ value next rest, readElement inner bytes offset = .ok (value, next) ∧
      readElements inner bytes count next = .ok rest ∧ read = value :: rest := by
  rw [readElements] at success
  split at success
  · cases success
  rename_i value next found
  split at success
  · cases success
  · rename_i rest later
    cases success
    exact ⟨value, next, rest, found, later, rfl⟩

theorem length_readElements {bytes : List UInt8} {count offset : Nat} {elements : List Value}
    (success : readElements inner bytes count offset = .ok elements) : elements.length = count := by
  induction count generalizing offset elements with
  | zero =>
    cases success
    rfl
  | succ count ih =>
    obtain ⟨value, next, rest, -, later, rfl⟩ := readElements_succ_eq_ok success
    rw [List.length_cons, ih later]

end Elements

theorem serializeElements_cons {element : Value} {rest : List Value} {written : List UInt8}
    (serialized : serializeElements (element :: rest) = .ok written) :
    ∃ bytes more, serialize element = .ok bytes ∧ serializeElements rest = .ok more ∧
      written = sizedElement element.type bytes ++ more := by
  rw [serializeElements] at serialized
  split at serialized
  · rename_i bytes more head tail
    cases serialized
    exact ⟨bytes, more, head, tail, rfl⟩
  · cases serialized
  · cases serialized

section Elements

variable {read : List Value} {written : List UInt8} {depth : Nat}

/-- The elements of a list that is read back are read back one by one, unless the
size of one was cut off. -/
theorem elements_read (first last : List UInt8)
    (serialized : serializeElements elements = .ok written)
    (bounded : ∀ element ∈ elements, ∀ part, serialize element = .ok part →
      part.length < 2 ^ 32 ∨ ReadsWhole element part)
    (success : readElements (deserializeWithin depth) (first ++ (written ++ last))
      elements.length first.length = .ok read) (equal : equalsElements elements read = true) :
    ∀ element ∈ elements, ∃ bytes back, serialize element = .ok bytes ∧ bytes.length < 2 ^ 32 ∧
      deserializeWithin depth bytes element.type = .ok back ∧ element.equals back = true := by
  induction elements generalizing first written read with
  | nil => simp
  | cons element rest ih =>
    obtain ⟨bytes, more, head, tail, rfl⟩ := serializeElements_cons serialized
    obtain ⟨back, next, others, found, later, rfl⟩ := readElements_succ_eq_ok success
    rw [equalsElements, Bool.and_eq_true] at equal
    rw [List.forall_mem_cons] at bounded ⊢
    have small : bytes.length < 2 ^ 32 := by
      rcases bounded.1 bytes head with small | whole
      · exact small
      obtain ⟨type, size, smallSize, rfl, fits, taken⟩ := readElement_eq_ok found
      have enough := whole depth _ type back taken equal.1
      rw [length_slice fits] at enough
      omega
    rw [List.append_assoc, readElement_sizedElement _ _ _ _ small] at found
    split at found
    · cases found
    · rename_i reads
      cases found
      refine ⟨⟨bytes, back, head, small, reads, equal.1⟩, ?_⟩
      apply ih (first ++ sizedElement element.type bytes) tail bounded.2 _ equal.2
      rw [length_append_sizedElement, List.append_assoc]
      rwa [List.append_assoc] at later

theorem length_elements_le (whole : ∀ element ∈ elements, ∀ part, serialize element = .ok part →
      ReadsWhole element part) (serialized : serializeElements elements = .ok written)
    (inside : offset ≤ bytes.length)
    (success : readElements (deserializeWithin depth) bytes elements.length
      offset = .ok read) (equal : equalsElements elements read = true) :
    offset + written.length ≤ bytes.length := by
  induction elements generalizing offset written read with
  | nil =>
    cases serialized
    exact inside
  | cons element rest ih =>
    obtain ⟨part, more, head, tail, rfl⟩ := serializeElements_cons serialized
    obtain ⟨back, next, others, found, later, rfl⟩ := readElements_succ_eq_ok success
    obtain ⟨type, size, -, rfl, fits, taken⟩ := readElement_eq_ok found
    rw [equalsElements, Bool.and_eq_true] at equal
    have enough := whole element (by simp) part head depth _ type back taken equal.1
    rw [length_slice fits] at enough
    have remaining := ih (fun other mem => whole other (List.mem_cons_of_mem _ mem))
      tail fits later equal.2
    simp only [sizedElement, List.length_append, length_leBytes]
    omega

end Elements

section Entries

structure WrittenEntry where
  key : List UInt8
  value : Value
  bytes : List UInt8
  written : serialize value = .ok bytes

namespace WrittenEntry

def toBytes (entry : WrittenEntry) : List UInt8 :=
  leBytes 4 entry.key.length ++ entry.key ++ sizedElement entry.value.type entry.bytes

theorem length_toBytes (entry : WrittenEntry) :
    entry.toBytes.length = entry.key.length + entry.bytes.length + 10 := by
  simp [toBytes, sizedElement]
  omega

end WrittenEntry

variable {entries : List (List UInt8 × Value)}

theorem exists_writtenEntries {parts : List (List UInt8 × List UInt8)}
    (serialized : serializeEntries entries = .ok parts) :
    ∃ written : List WrittenEntry, entries = written.map (fun entry => (entry.key, entry.value)) ∧
        parts = written.map fun entry => (entry.key, entry.toBytes) := by
  induction entries generalizing parts with
  | nil =>
    cases serialized
    exact ⟨[], rfl, rfl⟩
  | cons entry rest ih =>
    obtain ⟨key, value⟩ := entry
    rw [serializeEntries] at serialized
    split at serialized
    · rename_i bytes more head tail
      cases serialized
      obtain ⟨written, rfl, rfl⟩ := ih tail
      exact ⟨⟨key, value, bytes, head⟩ :: written, rfl, rfl⟩
    · cases serialized
    · cases serialized

theorem length_setEntry_le (key : List UInt8) (value : Value)
    (entries : List (List UInt8 × Value)) :
    (setEntry key value entries).length ≤ entries.length + 1 := by
  induction entries with
  | nil => simp [setEntry]
  | cons entry rest ih =>
    rw [setEntry]
    split_ifs
    · simp
    · simpa using ih

theorem length_setEntry_of_mem {key : List UInt8} (value : Value)
    (present : key ∈ entries.map Prod.fst) :
    (setEntry key value entries).length = entries.length := by
  induction entries with
  | nil => simp at present
  | cons entry rest ih =>
    rw [setEntry]
    split_ifs with same
    · simp
    · simp only [List.map_cons, List.mem_cons] at present
      rcases present with here | later
      · exact absurd here.symm same
      · simpa using ih later

theorem mem_keys_setEntry (key other : List UInt8) (value : Value)
    (entries : List (List UInt8 × Value)) :
    other ∈ (setEntry key value entries).map Prod.fst ↔
      other = key ∨ other ∈ entries.map Prod.fst := by
  induction entries with
  | nil => simp [setEntry]
  | cons entry rest ih =>
    rw [setEntry]
    split_ifs with same
    · simp [← same]
    · rw [List.map_cons, List.mem_cons, ih, List.map_cons, List.mem_cons]
      tauto

@[simp] theorem findEntry_setEntry_self (key : List UInt8) (value : Value)
    (entries : List (List UInt8 × Value)) :
    findEntry key (setEntry key value entries) = some value := by
  induction entries with
  | nil => simp [setEntry, findEntry]
  | cons entry rest ih =>
    rw [setEntry]
    split_ifs with same
    · simp [findEntry]
    · simp [findEntry, same, ih]

theorem findEntry_setEntry_of_ne {key other : List UInt8} (ne : other ≠ key) (value : Value)
    (entries : List (List UInt8 × Value)) :
    findEntry other (setEntry key value entries) = findEntry other entries := by
  induction entries with
  | nil => simp [setEntry, findEntry, ne.symm]
  | cons entry rest ih =>
    rw [setEntry]
    split_ifs with same
    · subst same
      simp [findEntry, ne.symm]
    · simp [findEntry, ih]

theorem equalsEntries_iff (left right : List (List UInt8 × Value)) :
    equalsEntries left right = true ↔
      ∀ entry ∈ left, ∃ back, findEntry entry.1 right = some back ∧
        entry.2.equals back = true := by
  induction left with
  | nil => simp [equalsEntries]
  | cons entry rest ih =>
    obtain ⟨key, value⟩ := entry
    rw [equalsEntries, Bool.and_eq_true, ih, List.forall_mem_cons]
    cases findEntry key right with
    | none | some back => simp

variable {inner : List UInt8 → TypeID → Except TypeError Value}

theorem readEntries_toBytes (first last : List UInt8) (entry : WrittenEntry)
    (smallKey : entry.key.length < 2 ^ 32)
    (small : entry.bytes.length < 2 ^ 32) (count : Nat)
    (entries : List (List UInt8 × Value)) :
    readEntries inner (first ++ (entry.toBytes ++ last)) (count + 1)
        first.length entries =
      match inner entry.bytes entry.value.type with
      | .error failure => .error failure
      | .ok value =>
        readEntries inner (first ++ (entry.toBytes ++ last)) count
          (first.length + entry.toBytes.length)
          (setEntry entry.key value entries) := by
  have size : readNat (first ++ (entry.toBytes ++ last)) first.length 4 = entry.key.length := by
    rw [WrittenEntry.toBytes, List.append_assoc, List.append_assoc]
    exact readNat_append first _ (by omega)
  have key : slice (first ++ (entry.toBytes ++ last)) (first.length + 4)
      entry.key.length = entry.key := by
    have found := slice_append_middle (first ++ leBytes 4 entry.key.length)
      entry.key (sizedElement entry.value.type entry.bytes ++ last)
    simpa [WrittenEntry.toBytes, List.append_assoc] using found
  have element : readElement inner (first ++ (entry.toBytes ++ last))
      (first.length + 4 + entry.key.length) =
        match inner entry.bytes entry.value.type with
        | .error failure => .error failure
        | .ok value => .ok (value, first.length + entry.toBytes.length) := by
    have found := @readElement_sizedElement inner (first ++ (leBytes 4 entry.key.length ++
      entry.key)) last entry.bytes entry.value.type (by omega)
    have place : (first ++ (leBytes 4 entry.key.length ++ entry.key)).length =
        first.length + 4 + entry.key.length := by
      simp
      omega
    have behind : first.length + 4 + entry.key.length + 6 +
        entry.bytes.length = first.length + entry.toBytes.length := by
      rw [entry.length_toBytes]
      omega
    rw [place, behind] at found
    simpa [WrittenEntry.toBytes, List.append_assoc] using found
  have long : (first ++ (entry.toBytes ++ last)).length = first.length +
      (entry.key.length + entry.bytes.length + 10) + last.length := by
    rw [List.length_append, List.length_append, entry.length_toBytes]
    omega
  rw [readEntries]
  dsimp only
  rw [size, key, element, if_neg (by omega), if_neg (by omega)]
  cases inner entry.bytes entry.value.type with
  | error failure | ok value => rfl

theorem readEntries_succ_eq_ok {bytes : List UInt8} {count offset : Nat}
    {result : List (List UInt8 × Value)}
    (success : readEntries inner bytes (count + 1) offset entries =
      .ok result) : ∃ key value type size, size < 2 ^ 32 ∧
      key = slice bytes (offset + 4) (readNat bytes offset 4) ∧
      offset + 4 + key.length + 6 + size ≤ bytes.length ∧
      inner (slice bytes (offset + 4 + key.length + 6) size) type = .ok value ∧
      readEntries inner bytes count (offset + 4 + key.length + 6 + size)
        (setEntry key value entries) = .ok result := by
  rw [readEntries] at success
  dsimp only at success
  split_ifs at success with noSize noKey
  split at success
  · cases success
  rename_i value next found
  have keyLength := length_slice (Nat.le_of_not_lt noKey)
  obtain ⟨type, size, small, rfl, fits, read⟩ := readElement_eq_ok found
  refine ⟨slice bytes (offset + 4) (readNat bytes offset 4), value, type, size, small, rfl, ?_⟩
  rw [keyLength]
  exact ⟨fits, read, success⟩

theorem readEntries_grows {inner : List UInt8 → TypeID → Except TypeError Value}
    {count offset : Nat} {entries result : List (List UInt8 × Value)}
    (success : readEntries inner bytes count offset entries = .ok result) :
    result.length ≤ entries.length + count ∧
      (∀ key ∈ entries.map Prod.fst, key ∈ result.map Prod.fst) ∧
      (result.length = entries.length + count →
        ∀ key ∈ entries.map Prod.fst, findEntry key result = findEntry key entries) := by
  induction count generalizing offset entries with
  | zero =>
    cases success
    simp
  | succ count ih =>
    obtain ⟨key, value, type, size, -, -, -, -, later⟩ := readEntries_succ_eq_ok success
    obtain ⟨bound, kept, unchanged⟩ := ih later
    have growth := length_setEntry_le key value entries
    refine ⟨by omega, fun other mem => kept other ?_, fun full other mem => ?_⟩
    · rw [mem_keys_setEntry]
      exact Or.inr mem
    have fresh : key ∉ entries.map Prod.fst := by
      intro present
      have same := length_setEntry_of_mem value present
      omega
    have ne : other ≠ key := fun same => fresh (same ▸ mem)
    rw [unchanged (by omega) other (by
      rw [mem_keys_setEntry]
      exact Or.inr mem), findEntry_setEntry_of_ne ne]

theorem entries_read {written : List WrittenEntry}
    {entries result : List (List UInt8 × Value)} (first last : List UInt8)
    (small : ∀ entry ∈ written, entry.key.length < 2 ^ 32 ∧ entry.bytes.length < 2 ^ 32)
    (success : readEntries inner
      (first ++ (written.flatMap WrittenEntry.toBytes ++ last)) written.length
      first.length entries = .ok result) (full : result.length = entries.length + written.length) :
    (written.map WrittenEntry.key).Nodup ∧ ∀ entry ∈ written, entry.key ∉ entries.map Prod.fst ∧
      ∃ back, inner entry.bytes entry.value.type = .ok back ∧
        findEntry entry.key result = some back := by
  induction written generalizing first entries with
  | nil => simp
  | cons entry rest ih =>
    obtain ⟨smallKey, smallBytes⟩ := small entry (by simp)
    rw [List.flatMap_cons, List.append_assoc, List.length_cons,
      readEntries_toBytes _ _ _ smallKey smallBytes] at success
    rw [List.length_cons] at full
    cases found : inner entry.bytes entry.value.type with
    | error failure => simp [found] at success
    | ok back =>
      simp only [found] at success
      obtain ⟨bound, -, unchanged⟩ := readEntries_grows success
      have growth := length_setEntry_le entry.key back entries
      have fresh : entry.key ∉ entries.map Prod.fst := by
        intro present
        have same := length_setEntry_of_mem back present
        omega
      obtain ⟨distinct, each⟩ := ih (first ++ entry.toBytes) (fun other mem => small other
        (List.mem_cons_of_mem _ mem)) (by
          rw [List.length_append, List.append_assoc]
          exact success) (by omega)
      simp only [mem_keys_setEntry, not_or] at each unchanged
      rw [List.map_cons, List.nodup_cons, List.forall_mem_cons]
      refine ⟨⟨fun present => ?_, distinct⟩, ⟨fresh, back, found, ?_⟩, fun other mem => ?_⟩
      · obtain ⟨other, mem, same⟩ := List.mem_map.mp present
        exact (each other mem).1.1 same
      · rw [unchanged (by omega) _ (.inl rfl), findEntry_setEntry_self]
      · exact ⟨(each other mem).1.2, (each other mem).2⟩

end Entries

/-- The entries that `found` names, each with what it was written to, fit into
the bytes before `bound`. -/
def EntriesFit (found : List (List UInt8 × Value)) (bound : Nat) : Prop :=
  ∀ written : List WrittenEntry, (written.map WrittenEntry.key).Nodup → (∀ entry ∈ written,
    ReadsWhole entry.value entry.bytes ∧ ∃ back, findEntry entry.key found = some back ∧
    entry.value.equals back = true) → 4 + (written.flatMap WrittenEntry.toBytes).length ≤ bound

theorem entriesFit_nil : EntriesFit [] 4 := by
  intro written _ each
  cases written with
  | nil => simp
  | cons entry rest =>
    obtain ⟨_, back, found, _⟩ := each entry (by simp)
    cases found

/-- One more entry pays for the written entry of its key. -/
theorem EntriesFit.setEntry {key : List UInt8} {depth size : Nat}
    {type : TypeID} {value : Value} (fit : EntriesFit entries offset)
    (fits : offset + 4 + key.length + 6 + size ≤ bytes.length) (read : deserializeWithin depth
      (slice bytes (offset + 4 + key.length + 6) size) type = .ok value) :
    EntriesFit (setEntry key value entries) (offset + 4 + key.length + 6 + size) := by
  intro written distinct each
  have kept : ∀ entry ∈ written, entry.key ≠ key → ReadsWhole entry.value entry.bytes ∧ ∃ back,
      findEntry entry.key entries = some back ∧ entry.value.equals back = true := by
    intro entry mem ne
    obtain ⟨whole, back, found, equal⟩ := each entry mem
    rw [findEntry_setEntry_of_ne ne] at found
    exact ⟨whole, back, found, equal⟩
  by_cases present : key ∈ written.map WrittenEntry.key
  · obtain ⟨entry, mem, same⟩ := List.mem_map.mp present
    obtain ⟨before, after, rfl⟩ := List.append_of_mem mem
    subst same
    have apart := (List.perm_middle.map WrittenEntry.key).nodup_iff.mp distinct
    rw [List.map_cons, List.nodup_cons] at apart
    have rest := fit (before ++ after) apart.2 (by
      intro other inRest
      refine kept other ?_ ?_
      · rcases List.mem_append.mp inRest with left | right
        · exact List.mem_append_left _ left
        · exact List.mem_append_right _ (List.mem_cons_of_mem _ right)
      · intro equalKey
        exact apart.1 (equalKey ▸ List.mem_map_of_mem inRest))
    obtain ⟨whole, back, found, equal⟩ := each entry mem
    rw [findEntry_setEntry_self, Option.some.injEq] at found
    subst found
    have enough := whole depth _ type value read equal
    rw [length_slice fits] at enough
    simp only [List.flatMap_append, List.flatMap_cons, List.length_append,
      entry.length_toBytes] at rest ⊢
    omega
  · have rest := fit written distinct fun entry mem =>
      kept entry mem fun same =>
        present (same ▸ List.mem_map_of_mem mem)
    omega

theorem EntriesFit.readEntries {depth count : Nat}
    {result : List (List UInt8 × Value)} (inside : offset ≤ bytes.length)
    (fit : EntriesFit entries offset)
    (success : readEntries (deserializeWithin depth) bytes count offset
      entries = .ok result) : EntriesFit result bytes.length := by
  induction count generalizing offset entries with
  | zero =>
    cases success
    intro written distinct each
    exact (fit written distinct each).trans inside
  | succ count ih =>
    obtain ⟨key, value, type, size, -, -, fits, read, later⟩ := readEntries_succ_eq_ok success
    exact ih fits (fit.setEntry fits read) later

section Read

variable {inner : List UInt8 → TypeID → Except TypeError Value} {read : Value}
  (found : ReadAs inner bytes read)

include found

theorem ReadAs.of_array {type : TypeID} (equal : Value.equals (.array type elements) read = true) :
    ∃ others, type = .invalid ∧ 4 ≤ bytes.length ∧ readNat bytes 0 4 = elements.length ∧
      readElements inner bytes elements.length 4 = .ok others ∧
      Value.equalsElements elements others = true := by
  cases found with
  | scalar value scalar present room =>
    rw [← Value.type_eq_of_equals equal rfl] at scalar
    cases scalar
  | array others room success =>
    rw [Value.equals, Bool.and_eq_true, decide_eq_true_eq] at equal
    have count := length_readElements success
    rw [← Value.length_eq_of_equalsElements equal.2] at count
    exact ⟨others, equal.1, room, count.symm, count ▸ success, equal.2⟩
  | string | bytea | json | dict => simp [Value.equals] at equal

theorem ReadAs.of_dict {written : List WrittenEntry} (equal : Value.equals
      (.dict (written.map fun entry => (entry.key, entry.value))) read = true) :
    ∃ others, 4 ≤ bytes.length ∧ readEntries inner bytes (readNat bytes 0 4) 4 [] = .ok others ∧
      written.length = others.length ∧ ∀ entry ∈ written, ∃ back,
        findEntry entry.key others = some back ∧ entry.value.equals back = true := by
  cases found with
  | scalar value scalar present room =>
    rw [← Value.type_eq_of_equals equal rfl] at scalar
    cases scalar
  | dict others room success =>
    rw [Value.equals, Bool.and_eq_true, equalsEntries_iff, decide_eq_true_eq,
      List.length_map] at equal
    exact ⟨others, room, success, equal.1, fun entry mem =>
      equal.2 (entry.key, entry.value) (List.mem_map.mpr ⟨entry, mem, rfl⟩)⟩
  | string | bytea | json | array => simp [Value.equals] at equal

end Read

theorem ReadsWhole.scalar {value : Value} {written : List UInt8}
    (scalar : value.type.isScalar = true) (present : value.isNull = false)
    (serialized : serialize value = .ok written) : ReadsWhole value written := by
  apply ReadsWhole.intro
  intro depth bytes read found equal
  have sameType := Value.type_eq_of_equals equal present
  rw [length_serialize_scalar scalar present serialized, sameType]
  rw [sameType] at scalar
  cases found with
  | scalar value scalarRead presentRead room => exact room
  | string kind => cases kind <;> cases scalar
  | bytea | json | array | dict => cases scalar

theorem ReadsWhole.string (text : List UInt8) (kind : StringKind) :
    ReadsWhole (.string text kind) text := by
  apply ReadsWhole.intro
  intro depth bytes read found equal
  cases found with
  | scalar value scalar present room =>
    rw [← Value.type_eq_of_equals equal rfl] at scalar
    cases kind <;> cases scalar
  | string other =>
    simp only [Value.equals, Bool.and_eq_true, decide_eq_true_eq] at equal
    rw [equal.2]
  | bytea | json | array | dict => simp [Value.equals] at equal

theorem ReadsWhole.bytea (data : List UInt8) : ReadsWhole (.bytea data) data := by
  apply ReadsWhole.intro
  intro depth bytes read found equal
  cases found with
  | scalar value scalar present room =>
    rw [← Value.type_eq_of_equals equal rfl] at scalar
    cases scalar
  | bytea =>
    simp only [Value.equals, decide_eq_true_eq] at equal
    rw [equal]
  | string | json | array | dict => simp [Value.equals] at equal

theorem ReadsWhole.array {elementType : TypeID} {written : List UInt8}
    (whole : ∀ element ∈ elements, ∀ part, serialize element = .ok part →
      ReadsWhole element part) (serialized : serializeElements elements = .ok written) :
    ReadsWhole (.array elementType elements) (leBytes 4 elements.length ++ written) := by
  apply ReadsWhole.intro
  intro depth bytes read found equal
  obtain ⟨others, -, room, -, success, same⟩ := found.of_array equal
  have bound := length_elements_le whole serialized room success same
  simp only [List.length_append, length_leBytes]
  omega

theorem ReadsWhole.dict {written : List WrittenEntry} {count : Nat} {body : List UInt8}
    (distinct : (written.map WrittenEntry.key).Nodup)
    (whole : ∀ entry ∈ written, ReadsWhole entry.value entry.bytes)
    (size : body.length = (written.flatMap WrittenEntry.toBytes).length) :
    ReadsWhole (.dict (written.map fun entry => (entry.key, entry.value)))
      (leBytes 4 count ++ body) := by
  apply ReadsWhole.intro
  intro depth bytes read found equal
  obtain ⟨others, room, success, -, same⟩ := found.of_dict equal
  have bound := entriesFit_nil.readEntries room success written distinct fun entry mem =>
    ⟨whole entry mem, same entry mem⟩
  simp only [List.length_append, length_leBytes]
  omega

theorem exists_sorted_entries (serialized : serialize (.dict entries) = .ok bytes) :
    ∃ written sorted : List WrittenEntry,
      entries = written.map (fun entry => (entry.key, entry.value)) ∧
      sorted.Perm written ∧
      (sorted.Pairwise fun left right => bytesLess right.key left.key = false) ∧
      bytes = leBytes 4 entries.length ++ sorted.flatMap WrittenEntry.toBytes := by
  rw [serialize] at serialized
  split at serialized
  · cases serialized
  rename_i parts success
  obtain ⟨written, same, rfl⟩ := exists_writtenEntries success
  cases serialized
  refine ⟨written, written.mergeSort fun first second =>
    !bytesLess second.key first.key, same, List.mergeSort_perm _ _,
    pairwise_mergeSort_bytes WrittenEntry.key written, ?_⟩
  have sorted := @List.map_mergeSort WrittenEntry (List UInt8 × List UInt8) (fun first second =>
    !bytesLess second.key first.key) (fun first second => !bytesLess second.1 first.1)
    (fun entry => (entry.key, entry.toBytes)) written fun _ _ _ _ => rfl
  rw [← sorted, List.flatMap_map]

theorem length_le_of_mem {element : Value} {written part : List UInt8}
    (serialized : serializeElements elements = .ok written)
    (mem : element ∈ elements) (partWritten : serialize element = .ok part) :
    part.length ≤ written.length := by
  induction elements generalizing written with
  | nil => cases mem
  | cons other rest ih =>
    obtain ⟨bytes, more, head, tail, rfl⟩ := serializeElements_cons serialized
    simp only [sizedElement, List.length_append]
    rcases List.mem_cons.mp mem with rfl | later
    · rw [partWritten, Except.ok.injEq] at head
      rw [head]
      omega
    · have bound := ih tail later
      omega

theorem length_le_of_flatMap (written : List WrittenEntry) :
    written.length ≤ (written.flatMap WrittenEntry.toBytes).length := by
  induction written with
  | nil => simp
  | cons entry rest ih =>
    rw [List.flatMap_cons, List.length_append, entry.length_toBytes, List.length_cons]
    omega

theorem length_toBytes_le {written : List WrittenEntry} {entry : WrittenEntry}
    (mem : entry ∈ written) :
    entry.toBytes.length ≤ (written.flatMap WrittenEntry.toBytes).length := by
  obtain ⟨before, after, rfl⟩ := List.append_of_mem mem
  simp only [List.flatMap_append, List.flatMap_cons, List.length_append]
  omega

/-- `Json::parse` wraps the text, so no document is read back. -/
theorem json_not_read {inner : List UInt8 → TypeID → Except TypeError Value}
    {root : JsonNode} {read : Value} (found : ReadAs inner root.toText read) :
    Value.equals (.json root) read = false := by
  rw [← Bool.not_eq_true]
  intro equal
  cases found with
  | scalar value scalar present room =>
    rw [← Value.type_eq_of_equals equal rfl] at scalar
    cases scalar
  | json =>
    simp only [Value.equals, decide_eq_true_eq] at equal
    have lengths := congrArg List.length equal
    simp only [JsonNode.toText, ascii, List.length_append] at lengths
    simp at lengths
    omega
  | string | bytea | array | dict => simp [Value.equals] at equal

section Collections

variable {depth : Nat}
  (below : ∀ {value read : Value} {written : List UInt8},
    serialize value = .ok written → written.length < 2 ^ 32 →
    deserializeWithin depth written value.type = .ok read →
    value.equals read = true → ReadsWhole value written)

include below

theorem ReadsWhole.array_of_read {elementType : TypeID}
    {elements : List Value} {read : Value} {written : List UInt8}
    (serialized : serializeElements elements = .ok written) (small : written.length < 2 ^ 32)
    (found : ReadAs (deserializeWithin depth) (leBytes 4 elements.length ++ written) read)
    (equal : Value.equals (.array elementType elements) read = true) :
    ReadsWhole (.array elementType elements) (leBytes 4 elements.length ++ written) := by
  obtain ⟨others, -, room, -, success, same⟩ := found.of_array equal
  have each := elements_read (leBytes 4 elements.length) [] serialized
    (fun element mem part writtenPart => .inl
      ((length_le_of_mem serialized mem writtenPart).trans_lt small)) (by simpa using success) same
  refine ReadsWhole.array ?_ serialized
  intro element mem part writtenPart
  obtain ⟨again, back, serializedAgain, smallPart, readBack, equalBack⟩ := each element mem
  rw [writtenPart] at serializedAgain
  cases serializedAgain
  exact below writtenPart smallPart readBack equalBack

theorem ReadsWhole.dict_of_read {written sorted : List WrittenEntry}
    {read : Value} (permuted : sorted.Perm written)
    (small : (sorted.flatMap WrittenEntry.toBytes).length < 2 ^ 32)
    (found : ReadAs (deserializeWithin depth)
      (leBytes 4 written.length ++ sorted.flatMap WrittenEntry.toBytes) read) (equal : Value.equals
      (.dict (written.map fun entry => (entry.key, entry.value))) read = true) :
    ReadsWhole (.dict (written.map fun entry => (entry.key, entry.value)))
      (leBytes 4 written.length ++ sorted.flatMap WrittenEntry.toBytes) := by
  have sizes : (sorted.flatMap WrittenEntry.toBytes).length =
      (written.flatMap WrittenEntry.toBytes).length := (permuted.flatMap_right _).length_eq
  have counts := length_le_of_flatMap sorted
  have count : readNat (leBytes 4 written.length ++
      sorted.flatMap WrittenEntry.toBytes) 0 4 = sorted.length := by
    rw [← permuted.length_eq]
    simpa using @readNat_append [] (sorted.flatMap WrittenEntry.toBytes) 4 sorted.length (by omega)
  obtain ⟨others, room, success, lengths, same⟩ := found.of_dict equal
  rw [count] at success
  have parts : ∀ entry ∈ sorted, entry.key.length < 2 ^ 32 ∧ entry.bytes.length < 2 ^ 32 := by
    intro entry mem
    have bound := length_toBytes_le mem
    rw [entry.length_toBytes] at bound
    exact ⟨by omega, by omega⟩
  rw [← permuted.length_eq] at lengths
  obtain ⟨distinct, each⟩ := @entries_read _ sorted [] others
    (leBytes 4 written.length) [] parts (by simpa using success) (by simp [lengths])
  refine ReadsWhole.dict ((permuted.map WrittenEntry.key).nodup_iff.mp distinct) ?_ sizes
  intro entry mem
  obtain ⟨-, back, readBack, foundBack⟩ := each entry (permuted.mem_iff.mpr mem)
  obtain ⟨other, foundOther, equalOther⟩ := same entry mem
  rw [foundBack, Option.some.injEq] at foundOther
  subst foundOther
  have partSmall := (parts entry (permuted.mem_iff.mpr mem)).2
  exact below entry.written partSmall readBack equalOther

end Collections

/-- A value that is no collection needs its bytes; a document does not, since
reading adds the quotation marks. -/
theorem ReadsWhole.leaf {value : Value} {written : List UInt8} (single : value.isCollection = false)
    (noJson : ∀ root, value ≠ .json root) (serialized : serialize value = .ok written) :
    ReadsWhole value written := by
  cases value with
  | null type =>
    cases serialized
    intro _ _ _ _ _ _
    simp
  | string text kind =>
    rw [serialize] at serialized
    cases serialized
    exact .string _ kind
  | bytea data =>
    rw [serialize] at serialized
    cases serialized
    exact .bytea _
  | json root => exact absurd rfl (noJson root)
  | array elementType elements | dict entries => cases single
  | enum id label => cases serialized
  | timestamp micros withTz =>
    exact .scalar (by cases withTz <;> rfl) rfl serialized
  | _ => exact .scalar rfl rfl serialized

theorem readsWhole_of_read {depth : Nat} {value read : Value}
    {written : List UInt8} (serialized : serialize value = .ok written)
    (small : written.length < 2 ^ 32)
    (success : deserializeWithin depth written value.type = .ok read)
    (equal : value.equals read = true) : ReadsWhole value written := by
  induction depth generalizing value read written with
  | zero => cases success
  | succ depth ih =>
    have found := readAs_of_deserializeWithin success
    cases value with
    | json root =>
      rw [serialize] at serialized
      cases serialized
      rw [json_not_read found] at equal
      cases equal
    | array elementType elements =>
      rw [serialize] at serialized
      split at serialized
      · cases serialized
      · rename_i bytes parts
        cases serialized
        rw [List.length_append, length_leBytes] at small
        exact .array_of_read ih parts (by omega) found equal
    | dict entries =>
      obtain ⟨entriesWritten, sorted, rfl, permuted, -, rfl⟩ := exists_sorted_entries serialized
      rw [List.length_append, length_leBytes] at small
      rw [List.length_map] at found ⊢
      exact .dict_of_read ih permuted (by omega) found equal
    | _ => exact .leaf rfl (fun _ same => by cases same) serialized

end TypeSerializer

end KlyroDB
