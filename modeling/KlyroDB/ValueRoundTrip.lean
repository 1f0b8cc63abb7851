import KlyroDB.SerializedValues
import Mathlib.Data.List.Nodup

/-!
# Values that are read back

Scalars and dictionaries of scalars are read back from their bytes.  An array
is read back without its element type, and a `NULL` inside a collection not at
all.
-/

namespace KlyroDB

open ByteMemory TypeSerializer

namespace Value

/-- Induction over the values inside a value. -/
@[elab_as_elim]
theorem nested_induction {motive : Value → Prop}
    (leaf : ∀ value, value.isCollection = false → motive value)
    (array : ∀ type elements, (∀ element ∈ elements, motive element) →
      motive (.array type elements)) (dict : ∀ entries, (∀ entry ∈ entries, motive entry.2) →
      motive (.dict entries)) (value : Value) : motive value := by
  apply @Value.rec motive (fun elements => ∀ element ∈ elements, motive element)
    (fun entries => ∀ entry ∈ entries, motive entry.2) fun entry => motive entry.2
  case array => exact array
  case dict => exact dict
  case mk => exact fun _ _ second => second
  case cons | cons => exact fun _ _ first rest => List.forall_mem_cons.mpr ⟨first, rest⟩
  case nil | nil => simp
  all_goals
    intros
    exact leaf _ rfl

mutual

/-- The property holds for the value and for all values inside it. -/
def All (property : Value → Prop) : Value → Prop
  | .array type elements => property (.array type elements) ∧ AllElements property elements
  | .dict entries => property (.dict entries) ∧ AllEntries property entries
  | value => property value

def AllElements (property : Value → Prop) : List Value → Prop
  | [] => True
  | element :: rest => All property element ∧ AllElements property rest

def AllEntries (property : Value → Prop) : List (List UInt8 × Value) → Prop
  | [] => True
  | (_, value) :: rest => All property value ∧ AllEntries property rest

end

mutual

/-- `operator==` with another relation between the values that are no
collections. -/
def Matches (leaf : Value → Value → Prop) : Value → Value → Prop
  | .array leftType left, .array rightType right =>
      leftType = rightType ∧ MatchesElements leaf left right
  | .dict left, .dict right => left.length = right.length ∧ MatchesEntries leaf left right
  | left, right => leaf left right

def MatchesElements (leaf : Value → Value → Prop) : List Value → List Value → Prop
  | [], [] => True
  | left :: lefts, right :: rights => Matches leaf left right ∧ MatchesElements leaf lefts rights
  | _, _ => False

def MatchesEntries (leaf : Value → Value → Prop) :
    List (List UInt8 × Value) → List (List UInt8 × Value) → Prop
  | [], _ => True
  | (key, left) :: lefts, rights => (∃ right, findEntry key rights = some right ∧ Matches leaf left
      right) ∧ MatchesEntries leaf lefts rights

end

mutual

def byteSize : Value → Nat
  | .null _ | .enum _ _ => 0
  | .boolean _ => 1
  | .smallInt _ => 2
  | .integer _ | .real _ | .date _ => 4
  | .bigInt _ | .double _ | .time _ | .timestamp _ _ => 8
  | .numeric _ => 9
  | .interval _ | .uuid _ => 16
  | .string value _ | .bytea value => value.length
  | .json root => root.toText.length
  | .array _ elements => 4 + elementsSize elements
  | .dict entries => 4 + entriesSize entries

def elementsSize : List Value → Nat
  | [] => 0
  | element :: rest => 6 + byteSize element + elementsSize rest

def entriesSize : List (List UInt8 × Value) → Nat
  | [] => 0
  | (key, value) :: rest => key.length + 10 + byteSize value + entriesSize rest

end

variable {property : Value → Prop} {value : Value}

theorem allElements_iff {elements : List Value} :
    AllElements property elements ↔ ∀ element ∈ elements, All property element := by
  induction elements with
  | nil => simp [AllElements]
  | cons element rest ih => rw [AllElements, ih, List.forall_mem_cons]

theorem allEntries_iff {entries : List (List UInt8 × Value)} :
    AllEntries property entries ↔ ∀ entry ∈ entries, All property entry.2 := by
  induction entries with
  | nil => simp [AllEntries]
  | cons entry rest ih => rw [AllEntries, ih, List.forall_mem_cons]

theorem all_array {type : TypeID} {elements : List Value} :
    All property (.array type elements) ↔
      property (.array type elements) ∧ ∀ element ∈ elements, All property element := by
  rw [All, allElements_iff]

theorem all_dict {entries : List (List UInt8 × Value)} :
    All property (.dict entries) ↔
      property (.dict entries) ∧ ∀ entry ∈ entries, All property entry.2 := by
  rw [All, allEntries_iff]

theorem all_leaf (leaf : value.isCollection = false) : All property value ↔ property value := by
  cases value with
  | array type elements | dict entries => cases leaf
  | _ => simp only [All]

theorem matchesEntries_iff {leaf : Value → Value → Prop} {left right : List (List UInt8 × Value)} :
    MatchesEntries leaf left right ↔
      ∀ entry ∈ left, ∃ back, findEntry entry.1 right = some back ∧ Matches leaf entry.2 back := by
  induction left with
  | nil => simp [MatchesEntries]
  | cons entry rest ih => rw [MatchesEntries, ih, List.forall_mem_cons]

theorem matches_leaf {leaf : Value → Value → Prop} {left right : Value}
    (single : left.isCollection = false) : Matches leaf left right ↔ leaf left right := by
  cases left with
  | array type elements | dict entries => cases single
  | _ => simp only [Matches]

theorem matchesElements_equals {left right : List Value} (each : ∀ element ∈ left, ∀ back,
      Matches (fun left right => left.equals right = true) element back →
        element.equals back = true)
    (same : MatchesElements (fun left right => left.equals right = true) left right) :
    equalsElements left right = true := by
  induction left generalizing right with
  | nil =>
    cases right with
    | nil => rfl
    | cons value rest => cases same
  | cons element rest ih =>
    cases right with
    | nil => cases same
    | cons value others =>
      rw [equalsElements, Bool.and_eq_true]
      exact ⟨each element (by simp) value same.1, ih (fun other mem => each other
        (List.mem_cons_of_mem _ mem)) same.2⟩

theorem Matches.equals {left right : Value}
    (same : Matches (fun left right => left.equals right = true) left right) :
    left.equals right = true := by
  induction left using nested_induction generalizing right with
  | leaf value single => rwa [matches_leaf single] at same
  | array type elements ih =>
    cases right with
    | array rightType others =>
      rw [Value.equals, Bool.and_eq_true, decide_eq_true_eq]
      exact ⟨same.1, matchesElements_equals (fun element mem back => ih element mem) same.2⟩
    | _ => simpa only [Matches] using same
  | dict entries ih =>
    cases right with
    | dict others =>
      rw [Matches, matchesEntries_iff] at same
      rw [Value.equals, Bool.and_eq_true, decide_eq_true_eq, equalsEntries_iff]
      refine ⟨same.1, fun entry mem => ?_⟩
      obtain ⟨back, found, equal⟩ := same.2 entry mem
      exact ⟨back, found, ih entry mem equal⟩
    | _ => simpa only [Matches] using same

theorem All.imp {first second : Value → Prop}
    (implies : ∀ inside, first inside → second inside) (all : value.All first) :
    value.All second := by
  induction value using nested_induction with
  | leaf value single =>
    rw [all_leaf single] at all ⊢
    exact implies value all
  | array type elements ih =>
    rw [all_array] at all ⊢
    exact ⟨implies _ all.1, fun element mem => ih element mem (all.2 element mem)⟩
  | dict entries ih =>
    rw [all_dict] at all ⊢
    exact ⟨implies _ all.1, fun entry mem => ih entry mem (all.2 entry mem)⟩

theorem All.and {first second : Value → Prop} (left : value.All first) (right : value.All second) :
    value.All fun inside => first inside ∧ second inside := by
  induction value using nested_induction with
  | leaf value single =>
    rw [all_leaf single] at left right ⊢
    exact ⟨left, right⟩
  | array type elements ih =>
    rw [all_array] at left right ⊢
    exact ⟨⟨left.1, right.1⟩, fun element mem =>
      ih element mem (left.2 element mem) (right.2 element mem)⟩
  | dict entries ih =>
    rw [all_dict] at left right ⊢
    exact ⟨⟨left.1, right.1⟩, fun entry mem =>
      ih entry mem (left.2 entry mem) (right.2 entry mem)⟩

/-- The sizes and counts of a collection fit into the 32 bits they are written
to. -/
def Sized : Value → Prop
  | .array _ elements => elements.length < 2 ^ 32 ∧ ∀ element ∈ elements, element.byteSize < 2 ^ 32
  | .dict entries => entries.length < 2 ^ 32 ∧
      ∀ entry ∈ entries, entry.1.length < 2 ^ 32 ∧ entry.2.byteSize < 2 ^ 32
  | _ => True

/-- A `Dict` is a map. -/
def DistinctKeys : Value → Prop
  | .dict entries => (entries.map Prod.fst).Nodup
  | _ => True

/-- The values of the types that the format restores, and dictionaries. -/
def Plain : Value → Prop
  | .boolean _ | .smallInt _ | .integer _ | .bigInt _ | .real _ | .double _
  | .numeric _ | .string _ _ | .bytea _ | .date _ | .time _ | .interval _
  | .uuid _ => True
  | .timestamp _ withTz => withTz = false
  | .dict entries => DistinctKeys (.dict entries)
  | .null _ | .json _ | .array _ _ | .enum _ _ => False

/-- The format keeps neither the element type of an array nor a `NULL`. -/
def Restorable : Value → Prop
  | .null _ => False
  | .array type elements => type = .invalid ∧ Sized (.array type elements)
  | .dict entries => Sized (.dict entries)
  | _ => True

end Value

namespace TypeSerializer

open Value

variable {elements : List Value} {value : Value} {entries : List (List UInt8 × Value)}

theorem length_serializeElements {written : List UInt8}
    (each : ∀ element ∈ elements, ∀ bytes, serialize element = .ok bytes →
      bytes.length = element.byteSize) (serialized : serializeElements elements = .ok written) :
    written.length = elementsSize elements := by
  induction elements generalizing written with
  | nil =>
    cases serialized
    rfl
  | cons element rest ih =>
    obtain ⟨bytes, more, head, tail, rfl⟩ := serializeElements_cons serialized
    have first := each element (by simp) bytes head
    have others := ih (fun other mem => each other (List.mem_cons_of_mem _ mem)) tail
    simp only [sizedElement, List.length_append, length_leBytes, elementsSize, first, others]

theorem length_writtenEntries {written : List WrittenEntry}
    (each : ∀ entry ∈ written, entry.bytes.length = entry.value.byteSize) :
    (written.flatMap WrittenEntry.toBytes).length =
      entriesSize (written.map fun entry => (entry.key, entry.value)) := by
  induction written with
  | nil => rfl
  | cons entry rest ih =>
    have first := each entry (by simp)
    have others := ih (fun other mem => each other (List.mem_cons_of_mem _ mem))
    rw [List.flatMap_cons, List.length_append, entry.length_toBytes,
      List.map_cons, entriesSize, others, first]
    omega

theorem length_serialize {written : List UInt8} (serialized : serialize value = .ok written) :
    written.length = value.byteSize := by
  induction value using nested_induction generalizing written with
  | leaf value single =>
    cases value with
    | array type elements | dict entries => cases single
    | enum id label => cases serialized
    | uuid value =>
      rw [serialize, Except.ok.injEq] at serialized
      rw [← serialized, value.size_eq, byteSize]
    | _ =>
      rw [serialize, Except.ok.injEq] at serialized
      rw [← serialized]
      simp [byteSize]
  | array type elements ih =>
    rw [serialize] at serialized
    split at serialized
    · cases serialized
    · rename_i bytes parts
      cases serialized
      rw [List.length_append, length_leBytes, byteSize, length_serializeElements
        (fun element mem _ => ih element mem) parts]
  | dict entries ih =>
    obtain ⟨entriesWritten, sorted, rfl, permuted, -, rfl⟩ := exists_sorted_entries serialized
    have each : ∀ entry ∈ entriesWritten, entry.bytes.length = entry.value.byteSize := by
      intro entry mem
      exact ih (entry.key, entry.value) (List.mem_map.mpr ⟨entry, mem, rfl⟩) entry.written
    rw [List.length_append, length_leBytes, byteSize,
      (permuted.flatMap_right _).length_eq, length_writtenEntries each]

/-- Only collections use the bound on the nesting. -/
theorem deserializeWithin_leaf {type : TypeID} (noArray : type ≠ .array)
    (noDict : type ≠ .dict) (bytes : List UInt8) (first second : Nat) :
    deserializeWithin (first + 1) bytes type = deserializeWithin (second + 1) bytes type := by
  cases type with
  | array => exact absurd rfl noArray
  | dict => exact absurd rfl noDict
  | _ => simp only [deserializeWithin]

def ReadsBack (leaf : Value → Value → Prop) (value : Value) : Prop :=
  ∃ bytes back, serialize value = .ok bytes ∧ (∀ depth, deserializeWithin (depth + 1) bytes
    value.type = .ok back) ∧ leaf value back

def Readable (leaf : Value → Value → Prop) (value : Value) : Prop :=
  Restorable value ∧ DistinctKeys value ∧ (value.isCollection = false → ReadsBack leaf value)

section Reading

variable {inner : List UInt8 → TypeID → Except TypeError Value}

theorem readElements_of_read {leaf : Value → Value → Prop}
    {elements : List Value} {written : List UInt8}
    (serialized : serializeElements elements = .ok written)
    (each : ∀ element ∈ elements, ∀ bytes, serialize element = .ok bytes →
      bytes.length < 2 ^ 32 ∧ ∃ back, inner bytes element.type = .ok back ∧
        Matches leaf element back) (first last : List UInt8) :
    ∃ backs, readElements inner (first ++ (written ++ last)) elements.length
        first.length = .ok backs ∧ MatchesElements leaf elements backs := by
  induction elements generalizing written first with
  | nil => exact ⟨[], rfl, trivial⟩
  | cons element rest ih =>
    obtain ⟨bytes, more, head, tail, rfl⟩ := serializeElements_cons serialized
    obtain ⟨small, back, read, same⟩ := each element (by simp) bytes head
    obtain ⟨backs, readRest, sameRest⟩ := ih tail (fun other mem => each other
      (List.mem_cons_of_mem _ mem)) (first ++ sizedElement element.type bytes)
    rw [length_append_sizedElement, List.append_assoc] at readRest
    refine ⟨back :: backs, ?_, ?_⟩
    · rw [List.append_assoc, List.length_cons, readElements,
        readElement_sizedElement _ _ _ _ small, read]
      simp only [readRest]
    · rw [MatchesElements]
      exact ⟨same, sameRest⟩

theorem setEntry_of_not_mem {key : List UInt8} {entries : List (List UInt8 × Value)}
    (absent : key ∉ entries.map Prod.fst) (value : Value) :
    setEntry key value entries = entries ++ [(key, value)] := by
  induction entries with
  | nil => rfl
  | cons entry rest ih =>
    simp only [List.map_cons, List.mem_cons, not_or] at absent
    rw [setEntry, if_neg (Ne.symm absent.1), ih absent.2, List.cons_append]

section

variable {related : WrittenEntry → Value → Prop} {written : List WrittenEntry}

theorem readEntries_of_read (distinct : (written.map WrittenEntry.key).Nodup)
    (each : ∀ entry ∈ written, entry.key.length < 2 ^ 32 ∧ entry.bytes.length < 2 ^ 32 ∧
      ∃ back, inner entry.bytes entry.value.type = .ok back ∧
        related entry back) (first last : List UInt8) {entries : List (List UInt8 × Value)}
    (fresh : ∀ entry ∈ written, entry.key ∉ entries.map Prod.fst) :
    ∃ backs, readEntries inner (first ++ (written.flatMap WrittenEntry.toBytes ++ last))
        written.length first.length entries = .ok (entries ++ backs) ∧
      List.Forall₂ (fun entry back => back.1 = entry.key ∧ related entry back.2) written backs := by
  induction written generalizing first entries with
  | nil => exact ⟨[], by simp [readEntries], .nil⟩
  | cons entry rest ih =>
    obtain ⟨smallKey, small, back, read, same⟩ := each entry (by simp)
    rw [List.map_cons, List.nodup_cons] at distinct
    have absent := fresh entry (by simp)
    have freshRest : ∀ other ∈ rest, other.key ∉ (entries ++ [(entry.key, back)]).map Prod.fst := by
      intro other mem present
      rw [List.map_append, List.mem_append] at present
      rcases present with before | here
      · exact fresh other (List.mem_cons_of_mem _ mem) before
      · have equal : other.key = entry.key := List.mem_singleton.mp here
        exact distinct.1 (equal ▸ List.mem_map_of_mem mem)
    obtain ⟨backs, readRest, sameRest⟩ := ih distinct.2 (fun other mem => each other
      (List.mem_cons_of_mem _ mem)) (first ++ entry.toBytes) freshRest
    refine ⟨(entry.key, back) :: backs, ?_, .cons ⟨rfl, same⟩ sameRest⟩
    rw [List.flatMap_cons, List.append_assoc, List.length_cons,
      readEntries_toBytes _ _ _ smallKey small, read]
    simp only
    rw [setEntry_of_not_mem absent]
    rw [List.length_append, List.append_assoc, List.append_assoc] at readRest
    exact readRest

theorem findEntry_of_forall₂ {backs : List (List UInt8 × Value)}
    (distinct : (written.map WrittenEntry.key).Nodup)
    (same : List.Forall₂ (fun entry back => back.1 = entry.key ∧
      related entry back.2) written backs) :
    ∀ entry ∈ written, ∃ back, findEntry entry.key backs = some back ∧ related entry back := by
  induction same with
  | nil => simp
  | cons head tail ih =>
    rename_i entry back rest others
    obtain ⟨key, value⟩ := back
    obtain ⟨rfl, rel⟩ := head
    rw [List.map_cons, List.nodup_cons] at distinct
    intro other mem
    rcases List.mem_cons.mp mem with rfl | later
    · exact ⟨value, by simp [findEntry], rel⟩
    obtain ⟨found, lookup, relOther⟩ := ih distinct.2 other later
    refine ⟨found, ?_, relOther⟩
    have ne : entry.key ≠ other.key := fun equal =>
      distinct.1 (equal ▸ List.mem_map_of_mem later)
    rw [findEntry, if_neg ne, lookup]

end

end Reading

theorem deserializeWithin_array {bytes : List UInt8} {depth : Nat} (room : 4 ≤ bytes.length)
    (read : readElements (deserializeWithin depth) bytes (readNat bytes 0 4) 4 =
      .ok elements) : deserializeWithin (depth + 1) bytes .array =
      .ok (.array .invalid elements) := by
  have enough : ¬ bytes.length < neededSize .array := Nat.not_lt.mpr room
  simp only [deserializeWithin]
  rw [if_neg enough, read]

theorem deserializeWithin_dict {bytes : List UInt8} {depth : Nat} (room : 4 ≤ bytes.length)
    (read : readEntries (deserializeWithin depth) bytes (readNat bytes 0 4) 4 [] = .ok entries) :
    deserializeWithin (depth + 1) bytes .dict = .ok (.dict entries) := by
  have enough : ¬ bytes.length < neededSize .dict := Nat.not_lt.mpr room
  simp only [deserializeWithin]
  rw [if_neg enough, read]

theorem exists_serializeElements
    (each : ∀ element ∈ elements, ∃ bytes, serialize element = .ok bytes) :
    ∃ written, serializeElements elements = .ok written := by
  induction elements with
  | nil => exact ⟨[], rfl⟩
  | cons element rest ih =>
    rw [List.forall_mem_cons] at each
    obtain ⟨bytes, head⟩ := each.1
    obtain ⟨more, tail⟩ := ih each.2
    rw [serializeElements, head, tail]
    exact ⟨_, rfl⟩

theorem exists_serializeEntries (each : ∀ entry ∈ entries, ∃ bytes, serialize entry.2 = .ok bytes) :
    ∃ parts, serializeEntries entries = .ok parts := by
  induction entries with
  | nil => exact ⟨[], rfl⟩
  | cons entry rest ih =>
    rw [List.forall_mem_cons] at each
    obtain ⟨bytes, head⟩ := each.1
    obtain ⟨more, tail⟩ := ih each.2
    rw [serializeEntries, head, tail]
    exact ⟨_, rfl⟩

theorem byteSize_le_elementsSize {element : Value} (mem : element ∈ elements) :
    element.byteSize ≤ elementsSize elements := by
  induction elements with
  | nil => cases mem
  | cons other rest ih =>
    rw [elementsSize]
    rcases List.mem_cons.mp mem with rfl | later
    · omega
    · have bound := ih later
      omega

theorem read_back {leaf : Value → Value → Prop} (readable : value.All (Readable leaf)) :
    ∃ bytes, serialize value = .ok bytes ∧
      ∀ depth, bytes.length < depth →
        ∃ back, deserializeWithin depth bytes value.type = .ok back ∧ Matches leaf value back := by
  induction value using nested_induction with
  | leaf value single =>
    rw [all_leaf single] at readable
    obtain ⟨bytes, back, written, read, related⟩ := readable.2.2 single
    refine ⟨bytes, written, fun depth enough => ?_⟩
    obtain ⟨depth, rfl⟩ : ∃ before, depth = before + 1 := ⟨depth - 1, by omega⟩
    exact ⟨back, read depth, (matches_leaf single).mpr related⟩
  | array type elements ih =>
    rw [all_array] at readable
    obtain ⟨⟨⟨rfl, count, sizes⟩, -⟩, each⟩ := readable
    obtain ⟨written, serialized⟩ := exists_serializeElements fun element mem =>
        (ih element mem (each element mem)).imp fun _ found => found.1
    have total := length_serializeElements (fun _ _ _ found => length_serialize found) serialized
    refine ⟨leBytes 4 elements.length ++ written, by
      rw [serialize, serialized], fun depth enough => ?_⟩
    rw [List.length_append, length_leBytes] at enough
    obtain ⟨depth, rfl⟩ : ∃ before, depth = before + 1 := ⟨depth - 1, by omega⟩
    obtain ⟨backs, read, same⟩ := @readElements_of_read (deserializeWithin depth) leaf elements
      written serialized (by
        intro element mem bytes partWritten
        have size := length_serialize partWritten
        have bound := byteSize_le_elementsSize mem
        obtain ⟨again, writtenAgain, reads⟩ := ih element mem (each element mem)
        rw [partWritten, Except.ok.injEq] at writtenAgain
        subst writtenAgain
        exact ⟨size ▸ sizes element mem, reads depth (by omega)⟩)
      (leBytes 4 elements.length) []
    have counted : readNat (leBytes 4 elements.length ++ written) 0 4 = elements.length := by
      simpa using @readNat_append [] written 4 elements.length count
    refine ⟨.array .invalid backs, deserializeWithin_array (by simp) ?_, ?_⟩
    · rw [counted]
      simpa using read
    · rw [Matches]
      exact ⟨rfl, same⟩
  | dict entries ih =>
    rw [all_dict] at readable
    obtain ⟨⟨⟨count, sizes⟩, distinct, -⟩, each⟩ := readable
    obtain ⟨parts, serializedParts⟩ := exists_serializeEntries fun entry mem =>
        (ih entry mem (each entry mem)).imp fun _ found => found.1
    have serialized : ∃ bytes, serialize (.dict entries) = .ok bytes := by
      rw [serialize, serializedParts]
      exact ⟨_, rfl⟩
    obtain ⟨bytes, serialized⟩ := serialized
    refine ⟨bytes, serialized, fun depth enough => ?_⟩
    obtain ⟨written, sorted, rfl, permuted, -, rfl⟩ := exists_sorted_entries serialized
    rw [List.length_append, length_leBytes] at enough
    obtain ⟨depth, rfl⟩ : ∃ before, depth = before + 1 := ⟨depth - 1, by omega⟩
    have distinctSorted : (sorted.map WrittenEntry.key).Nodup := by
      rw [(permuted.map WrittenEntry.key).nodup_iff]
      simpa [DistinctKeys, Function.comp_def] using distinct
    obtain ⟨backs, read, same⟩ := @readEntries_of_read (deserializeWithin depth)
      (fun entry back => Matches leaf entry.value back) sorted distinctSorted (by
        intro entry mem
        have inside : (entry.key, entry.value) ∈ written.map fun entry => (entry.key, entry.value)
            := List.mem_map.mpr ⟨entry, permuted.mem_iff.mp mem, rfl⟩
        have bound := length_toBytes_le mem
        rw [entry.length_toBytes] at bound
        obtain ⟨again, writtenAgain, reads⟩ := ih _ inside (each _ inside)
        rw [entry.written, Except.ok.injEq] at writtenAgain
        subst writtenAgain
        refine ⟨(sizes _ inside).1, ?_, reads depth (by omega)⟩
        rw [length_serialize entry.written]
        exact (sizes _ inside).2)
      (leBytes 4 written.length) [] [] (by simp)
    have counted : readNat (leBytes 4 written.length ++
        sorted.flatMap WrittenEntry.toBytes) 0 4 = sorted.length := by
      rw [permuted.length_eq]
      simpa using @readNat_append [] (sorted.flatMap WrittenEntry.toBytes) 4
        written.length (by simpa using count)
    rw [List.length_map]
    refine ⟨.dict backs, deserializeWithin_dict (by simp) ?_, ?_⟩
    · rw [counted]
      simpa using read
    rw [Matches, matchesEntries_iff, List.length_map, ← permuted.length_eq, same.length_eq]
    refine ⟨rfl, ?_⟩
    intro entry mem
    obtain ⟨origin, originMember, rfl⟩ := List.mem_map.mp mem
    exact findEntry_of_forall₂ distinctSorted same origin (permuted.mem_iff.mpr originMember)

theorem readNat_leBytes {width number : Nat} (small : number < 256 ^ width) (last : List UInt8) :
    readNat (leBytes width number ++ last) 0 width = number := by
  simpa using readNat_append [] last small

theorem readsBack_of_word {width number : Nat} (small : number < 256 ^ width)
    (written : serialize value = .ok (leBytes width number))
    (read : ∀ depth bytes, bytes.length = width →
      readNat bytes 0 width = number →
        deserializeWithin (depth + 1) bytes value.type = .ok value) : ReadsBack Eq value := by
  have number_read := readNat_leBytes small []
  rw [List.append_nil] at number_read
  exact ⟨_, value, written, fun depth => read depth _ (length_leBytes _ _) number_read, rfl⟩

theorem readsBack_plain {value : Value} (plain : Plain value)
    (single : value.isCollection = false) : ReadsBack Eq value := by
  cases value with
  | null type | json root | array type elements | enum id label => cases plain
  | dict entries => cases single
  | boolean value => cases value <;> exact ⟨_, _, rfl, fun _ => rfl, rfl⟩
  | string value kind =>
    cases kind <;> exact ⟨_, _, rfl, fun _ => rfl, rfl⟩
  | bytea value => exact ⟨_, _, rfl, fun _ => rfl, rfl⟩
  | smallInt word | integer word | date word | bigInt word | time word | real word | double word =>
    refine readsBack_of_word ?_ rfl ?_
    · first | exact UInt16.toNat_lt _ | exact UInt32.toNat_lt _ | exact UInt64.toNat_lt _
    · intro depth bytes length read
      simp [deserializeWithin, Value.type, neededSize, length, read]
  | timestamp micros withTz =>
    cases plain
    apply readsBack_of_word micros.toUInt64.toNat_lt rfl
    intro depth bytes length read
    simp [deserializeWithin, Value.type, neededSize, length, read]
  | numeric value =>
    refine ⟨_, _, rfl, fun depth => ?_, rfl⟩
    have coefficient := @readNat_leBytes 8 _ value.coefficient.toUInt64.toNat_lt [value.scale]
    have scale : readNat (leBytes 8 value.coefficient.toUInt64.toNat ++
        [value.scale]) 8 1 = value.scale.toNat := by simp [readNat, slice, leNat]
    simp [deserializeWithin, Value.type, neededSize, coefficient, scale]
  | interval value =>
    refine ⟨_, _, rfl, fun depth => ?_, rfl⟩
    have months := @readNat_leBytes 4 _ value.months.toUInt32.toNat_lt (leBytes 4
      value.days.toUInt32.toNat ++ leBytes 8 value.micros.toUInt64.toNat)
    have days := @readNat_append (leBytes 4 value.months.toUInt32.toNat)
      (leBytes 8 value.micros.toUInt64.toNat) 4 _ value.days.toUInt32.toNat_lt
    have micros := @readNat_append (leBytes 4 value.months.toUInt32.toNat ++ leBytes 4
      value.days.toUInt32.toNat) [] 8 _ value.micros.toUInt64.toNat_lt
    simp only [List.length_append, length_leBytes, List.append_nil,
      List.append_assoc] at days micros
    simp [deserializeWithin, Value.type, neededSize, months, days, micros]
  | uuid value =>
    refine ⟨_, _, rfl, fun depth => ?_, rfl⟩
    have whole : slice value.data 0 16 = value.data := by
      rw [slice, List.drop_zero, List.take_of_length_le value.size_eq.le]
    simp [deserializeWithin, Value.type, neededSize, value.size_eq, whole]

theorem serialize_inj {other : Value} (plain : Plain value) (otherPlain : Plain other)
    (single : value.isCollection = false) (otherSingle : other.isCollection = false)
    (types : value.type = other.type) (same : serialize value = serialize other) :
    value = other := by
  obtain ⟨bytes, back, written, read, rfl⟩ := readsBack_plain plain single
  obtain ⟨bytes, back, otherWritten, otherRead, rfl⟩ := readsBack_plain otherPlain otherSingle
  cases written.symm.trans (same.trans otherWritten)
  exact Except.ok.inj ((read 0).symm.trans (types ▸ otherRead 0))

section CanonicalOrder

variable {first second : List (List UInt8 × List UInt8)}

/-- The order of the keys decides the order of entries with different keys. -/
theorem mergeSort_eq_of_perm (permuted : first.Perm second)
    (distinct : (first.map Prod.fst).Nodup) :
    (first.mergeSort fun left right => !bytesLess right.1 left.1) =
      second.mergeSort fun left right => !bytesLess right.1 left.1 := by
  apply List.Perm.eq_of_pairwise _ (pairwise_mergeSort_bytes Prod.fst first)
    (pairwise_mergeSort_bytes Prod.fst second)
  · exact (List.mergeSort_perm _ _).trans (permuted.trans (List.mergeSort_perm _ _).symm)
  intro left right inFirst inSecond before after
  rw [bytesLess_eq_false_iff_le] at before after
  have leftMember := (List.mergeSort_perm first _).mem_iff.mp inFirst
  have rightMember := permuted.mem_iff.mpr ((List.mergeSort_perm second _).mem_iff.mp inSecond)
  exact List.inj_on_of_nodup_map distinct leftMember rightMember (List.le_antisymm before after)

end CanonicalOrder

theorem type_eq_of_matches {left right : Value} (same : Matches Eq left right) :
    left.type = right.type := by
  cases left with
  | array leftType elements =>
    cases right with
    | array rightType others => rfl
    | _ => cases same
  | dict entries =>
    cases right with
    | dict others => rfl
    | _ => cases same
  | _ =>
    rw [← same]

theorem readable_of_plain (plain : value.All Plain) (sized : value.All Sized) :
    value.All (Readable Eq) := by
  apply All.imp _ (plain.and sized)
  rintro inside ⟨plainInside, sizedInside⟩
  refine ⟨?_, ?_, readsBack_plain plainInside⟩
  · cases inside with
    | dict entries => exact sizedInside
    | null | array => cases plainInside
    | _ => trivial
  · cases inside with
    | dict entries => exact plainInside
    | _ => trivial

theorem mem_of_findEntry {key : List UInt8}
    (found : findEntry key entries = some value) : (key, value) ∈ entries := by
  induction entries with
  | nil => cases found
  | cons entry rest ih =>
    rw [findEntry] at found
    split_ifs at found with same
    · cases found
      rw [← same]
      exact List.mem_cons_self
    · exact List.mem_cons_of_mem _ (ih found)

theorem keys_subset_of_found {left right : List (List UInt8 × Value)}
    (each : ∀ entry ∈ left, ∃ other, findEntry entry.1 right = some other) :
    left.map Prod.fst ⊆ right.map Prod.fst := by
  intro key mem
  obtain ⟨entry, inside, rfl⟩ := List.mem_map.mp mem
  obtain ⟨other, found⟩ := each entry inside
  exact List.mem_map.mpr ⟨_, mem_of_findEntry found, rfl⟩

theorem serialize_dict_congr {left right : List (List UInt8 × Value)}
    (distinctLeft : (left.map Prod.fst).Nodup) (distinctRight : (right.map Prod.fst).Nodup)
    (counts : left.length = right.length)
    (each : ∀ entry ∈ left, ∃ bytes other, serialize entry.2 = .ok bytes ∧
      findEntry entry.1 right = some other ∧ serialize other = .ok bytes ∧
      entry.2.type = other.type) : serialize (.dict left) = serialize (.dict right) := by
  have keys : (left.map Prod.fst).Perm (right.map Prod.fst) := by
    apply (List.subperm_of_subset distinctLeft ?_).perm_of_length_le
    · simp [counts]
    · exact keys_subset_of_found fun entry mem =>
        (each entry mem).elim fun _ other => other.imp fun _ found => found.2.1
  have everyRight : ∀ entry ∈ right, ∃ bytes, serialize entry.2 = .ok bytes := by
    intro entry mem
    obtain ⟨origin, originMember, sameKey⟩ := List.mem_map.mp
      (keys.mem_iff.mpr (List.mem_map_of_mem mem))
    obtain ⟨bytes, other, -, found, written, -⟩ := each origin originMember
    have same := List.inj_on_of_nodup_map distinctRight (mem_of_findEntry found) mem sameKey
    exact ⟨bytes, by rw [← same]; exact written⟩
  obtain ⟨leftParts, leftSuccess⟩ := exists_serializeEntries
    fun entry mem => (each entry mem).imp fun _ ⟨_, found⟩ => found.1
  obtain ⟨rightParts, rightSuccess⟩ := exists_serializeEntries everyRight
  obtain ⟨leftWritten, rfl, rfl⟩ := exists_writtenEntries leftSuccess
  obtain ⟨rightWritten, rfl, rfl⟩ := exists_writtenEntries rightSuccess
  have distinct : ((leftWritten.map fun entry =>
      (entry.key, entry.toBytes)).map Prod.fst).Nodup := by
    simpa [Function.comp_def] using distinctLeft
  have inside : (leftWritten.map fun entry => (entry.key, entry.toBytes)) ⊆
      rightWritten.map fun entry => (entry.key, entry.toBytes) := by
    intro part mem
    obtain ⟨entry, entryMember, rfl⟩ := List.mem_map.mp mem
    obtain ⟨bytes, other, written, found, otherWritten, sameType⟩ :=
      each (entry.key, entry.value) (List.mem_map.mpr ⟨entry, entryMember, rfl⟩)
    obtain ⟨partner, matchMember, pair⟩ := List.mem_map.mp (mem_of_findEntry found)
    obtain ⟨sameKey, rfl⟩ := Prod.mk.inj pair
    have first : entry.bytes = bytes := Except.ok.inj (entry.written.symm.trans written)
    have second : partner.bytes = bytes := Except.ok.inj (partner.written.symm.trans otherWritten)
    refine List.mem_map.mpr ⟨partner, matchMember, ?_⟩
    simp only [WrittenEntry.toBytes, sameKey, first, second]
    rw [sameType]
  have permuted := (List.subperm_of_subset distinct.of_map
    inside).perm_of_length_le (by simpa using counts.ge)
  rw [serialize, serialize, leftSuccess, rightSuccess]
  simp only
  rw [mergeSort_eq_of_perm permuted distinct, counts]

theorem serialize_eq_of_matches {other : Value} (plain : value.All Plain)
    (sized : value.All Sized) (distinct : other.All DistinctKeys)
    (same : Matches Eq value other) : serialize value = serialize other := by
  induction value using nested_induction generalizing other with
  | leaf value single =>
    rw [matches_leaf single] at same
    rw [same]
  | array type elements ih =>
    exact plain.1.elim
  | dict entries ih =>
    cases other with
    | dict others =>
      rw [all_dict] at plain sized distinct
      rw [Matches, matchesEntries_iff] at same
      apply serialize_dict_congr plain.1 distinct.1 same.1
      intro entry mem
      obtain ⟨back, found, sameBack⟩ := same.2 entry mem
      obtain ⟨bytes, written, -⟩ := read_back
        (readable_of_plain (plain.2 entry mem) (sized.2 entry mem))
      have backWritten := ih entry mem (plain.2 entry mem) (sized.2 entry mem)
        (distinct.2 _ (mem_of_findEntry found)) sameBack
      exact ⟨bytes, back, written, found, backWritten ▸ written, type_eq_of_matches sameBack⟩
    | _ => cases same

/-- Values of the plain types and dictionaries of them are read back, with the
same leaves; dictionaries with the same leaves have the same bytes. -/
theorem plain_values_round_trip (value : Value) (plain : value.All Plain)
    (sized : value.All Sized) :
    (∃ bytes back, serialize value = .ok bytes ∧
      deserialize bytes value.type = .ok back ∧ Matches Eq value back) ∧
    ∀ other, other.All DistinctKeys → Matches Eq value other →
      serialize value = serialize other := by
  constructor
  · obtain ⟨bytes, written, reads⟩ := read_back (readable_of_plain plain sized)
    obtain ⟨back, read, same⟩ := reads _ (Nat.lt_succ_self _)
    exact ⟨bytes, back, written, read, same⟩
  · intro other distinct same
    exact serialize_eq_of_matches plain sized distinct same

theorem plain_values_round_trip_nested :
    ∃ bytes back, serialize (.dict [([98], .dict [([], .integer 7)]),
        ([97], .real 0x7FC00000)]) = .ok bytes ∧
      deserialize bytes .dict = .ok back ∧
      Matches Eq (.dict [([98], .dict [([], .integer 7)]), ([97], .real 0x7FC00000)]) back := by
  refine (plain_values_round_trip (.dict [([98], .dict [([], .integer 7)]),
    ([97], .real 0x7FC00000)]) ?_ ?_).1
  · simp [All, AllEntries, Plain, DistinctKeys]
  · simp [All, AllEntries, Sized, byteSize, entriesSize]

end TypeSerializer

end KlyroDB
