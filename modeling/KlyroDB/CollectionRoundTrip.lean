import KlyroDB.ValueRoundTrip

/-!
# Collections that are read back

An array or a dictionary is read back exactly if there is no `NULL` inside, if
every array inside has the element type that `deserialize` gives to all arrays,
and if all sizes and counts fit into their 32 bits.
-/

namespace KlyroDB

open ByteMemory TypeSerializer Value

namespace Value

/-- The leaves are `NULL` or are read back themselves. -/
def RoundTripLeaf : Value → Prop
  | .null _ | .array _ _ => True
  | .dict entries => DistinctKeys (.dict entries)
  | leaf => RoundTrips leaf

end Value

namespace TypeSerializer

theorem RoundTrips.not_json {root : JsonNode} : ¬ RoundTrips (.json root) := by
  rintro ⟨bytes, read, written, success, equal⟩
  cases written
  rw [json_not_read (readAs_of_deserializeWithin success)] at equal
  cases equal

theorem readsWhole_of_leaves {value : Value}
    (leaves : value.All RoundTripLeaf) {written : List UInt8}
    (serialized : serialize value = .ok written) : ReadsWhole value written := by
  induction value using nested_induction generalizing written with
  | leaf value single =>
    refine .leaf single ?_ serialized
    rintro root rfl
    exact RoundTrips.not_json leaves
  | array type elements ih =>
    rw [all_array] at leaves
    rw [serialize] at serialized
    split at serialized
    · cases serialized
    · rename_i bytes parts
      cases serialized
      exact .array (fun element mem part =>
        ih element mem (leaves.2 element mem)) parts
  | dict entries ih =>
    rw [all_dict] at leaves
    obtain ⟨distinct, each⟩ := leaves
    obtain ⟨entriesWritten, sorted, rfl, permuted, -, rfl⟩ := exists_sorted_entries serialized
    apply ReadsWhole.dict
    · simpa [RoundTripLeaf, DistinctKeys, Function.comp_def] using distinct
    · intro entry mem
      have inside : (entry.key, entry.value) ∈ entriesWritten.map fun entry =>
          (entry.key, entry.value) := List.mem_map.mpr ⟨entry, mem, rfl⟩
      exact ih _ inside (each _ inside) entry.written
    · exact (permuted.flatMap_right _).length_eq

variable {bytes : List UInt8}

theorem bytesLess_take {count : Nat} (shorter : count < bytes.length) :
    bytesLess (bytes.take count) bytes = true := by
  induction bytes generalizing count with
  | nil => cases shorter
  | cons byte rest ih =>
    cases count with
    | zero => rfl
    | succ count =>
      have before : count < rest.length := by simpa using shorter
      simp [bytesLess, ih before]

theorem key_read (first last : List UInt8) (entry : WrittenEntry) :
    slice (first ++ (entry.toBytes ++ last)) (first.length + 4)
        (readNat (first ++ (entry.toBytes ++ last)) first.length 4) =
      entry.key.take (entry.key.length % 2 ^ 32) := by
  rw [WrittenEntry.toBytes, List.append_assoc, List.append_assoc, readNat_append_of_le le_rfl,
    Nat.sub_self, ByteMemory.readNat_leBytes, slice_append_of_le (Nat.le_add_right _ _),
    Nat.add_sub_cancel_left, slice_append_of_le (length_leBytes _ _).le, length_leBytes,
    Nat.sub_self, slice, List.drop_zero, List.take_append_of_le_length (Nat.mod_le _ _)]
  rfl

/-- The sizes of entries that are read back have not been cut off: a key that
was cut off would come before all keys that are still to be read. -/
theorem entries_sized {written : List WrittenEntry} {depth : Nat}
    {entries result : List (List UInt8 × Value)} (first last : List UInt8)
    (success : readEntries (deserializeWithin depth)
      (first ++ (written.flatMap WrittenEntry.toBytes ++ last)) written.length
      first.length entries = .ok result) (full : result.length = entries.length + written.length)
    (known : ∀ key ∈ result.map Prod.fst,
      key ∈ entries.map Prod.fst ∨ key ∈ written.map WrittenEntry.key)
    (sorted : written.Pairwise fun left right => bytesLess right.key left.key = false)
    (found : ∀ entry ∈ written, ReadsWhole entry.value entry.bytes ∧
      ∃ back, findEntry entry.key result = some back ∧ entry.value.equals back = true) :
    ∀ entry ∈ written, entry.key.length < 2 ^ 32 ∧ entry.bytes.length < 2 ^ 32 := by
  induction written generalizing first entries with
  | nil => simp
  | cons entry rest ih =>
    rw [List.pairwise_cons] at sorted
    rw [List.flatMap_cons, List.append_assoc] at success
    rw [List.length_cons] at success full
    obtain ⟨key, value, type, size, smallSize, keyBytes, fits, read, later⟩ :=
      readEntries_succ_eq_ok success
    rw [key_read] at keyBytes
    obtain ⟨bound, kept, unchanged⟩ := readEntries_grows later
    have growth := length_setEntry_le key value entries
    have fresh : key ∉ entries.map Prod.fst := by
      intro present
      have same := length_setEntry_of_mem value present
      omega
    have stored : key ∈ (setEntry key value entries).map Prod.fst := by
      rw [mem_keys_setEntry]
      exact Or.inl rfl
    have inWritten := (known key (kept key stored)).resolve_left fresh
    have smallKey : entry.key.length < 2 ^ 32 := by
      by_contra long
      have cut : entry.key.length % 2 ^ 32 < entry.key.length :=
        (Nat.mod_lt _ (by norm_num)).trans_le (Nat.le_of_not_lt long)
      have less := bytesLess_take cut
      rw [← keyBytes] at less
      rw [List.map_cons, List.mem_cons] at inWritten
      rcases inWritten with same | inRest
      · rw [same, bytesLess_iff_lt] at less
        exact List.lt_irrefl _ less
      · obtain ⟨other, mem, same⟩ := List.mem_map.mp inRest
        rw [← same, sorted.1 other mem] at less
        cases less
    rw [Nat.mod_eq_of_lt smallKey, List.take_length] at keyBytes
    subst keyBytes
    obtain ⟨whole, back, lookup, equal⟩ := found entry (by simp)
    rw [unchanged (by omega) _ stored, findEntry_setEntry_self, Option.some.injEq] at lookup
    subst lookup
    have small : entry.bytes.length < 2 ^ 32 := by
      have enough := whole depth _ type value read equal
      rw [length_slice fits] at enough
      omega
    rw [readEntries_toBytes _ _ _ smallKey small] at success
    cases again : deserializeWithin depth entry.bytes entry.value.type with
    | error failure => simp [again] at success
    | ok other =>
      simp only [again] at success
      rw [List.forall_mem_cons]
      refine ⟨⟨smallKey, small⟩, ?_⟩
      have freshLength := readEntries_grows success
      have growthOther := length_setEntry_le entry.key other entries
      apply ih (first ++ entry.toBytes) (by
          rw [List.length_append, List.append_assoc]
          exact success)
        (by omega) _ sorted.2
        (fun next mem => found next (List.mem_cons_of_mem _ mem))
      intro next mem
      rw [mem_keys_setEntry]
      rcases known next mem with before | inside
      · exact Or.inl (Or.inr before)
      · rw [List.map_cons, List.mem_cons] at inside
        rcases inside with same | after
        · exact Or.inl (Or.inl same)
        · exact Or.inr after

section Necessity

variable {depth : Nat}
  (below : ∀ {value read : Value} {written : List UInt8},
    value.All RoundTripLeaf → serialize value = .ok written →
    deserializeWithin depth written value.type = .ok read →
    value.equals read = true → value.All Restorable)

include below

theorem restorable_array {type : TypeID} {elements : List Value}
    {read : Value} {written : List UInt8} (leaves : ∀ element ∈ elements, element.All RoundTripLeaf)
    (serialized : serializeElements elements = .ok written)
    (found : ReadAs (deserializeWithin depth) (leBytes 4 elements.length ++ written) read)
    (equal : Value.equals (.array type elements) read = true) :
    (Value.array type elements).All Restorable := by
  obtain ⟨others, invalid, room, count, success, same⟩ := found.of_array equal
  have countSmall : elements.length < 2 ^ 32 := by
    rw [← count]
    exact readNat_lt _ _
  have each := elements_read (leBytes 4 elements.length) [] serialized
    (fun element mem _ written => .inr (readsWhole_of_leaves (leaves element mem) written))
    (by simpa using success) same
  rw [all_array]
  refine ⟨⟨invalid, countSmall, fun element mem => ?_⟩, fun element mem => ?_⟩
  · obtain ⟨bytes, back, elementWritten, small, -⟩ := each element mem
    rwa [← length_serialize elementWritten]
  · obtain ⟨bytes, back, elementWritten, -, readBack, equalBack⟩ := each element mem
    exact below (leaves element mem) elementWritten readBack equalBack

theorem restorable_dict {written sorted : List WrittenEntry} {read : Value}
    (permuted : sorted.Perm written) (ordered : sorted.Pairwise fun left right =>
      bytesLess right.key left.key = false) (distinct : (written.map WrittenEntry.key).Nodup)
    (leaves : ∀ entry ∈ written, entry.value.All RoundTripLeaf)
    (found : ReadAs (deserializeWithin depth)
      (leBytes 4 written.length ++ sorted.flatMap WrittenEntry.toBytes) read) (equal : Value.equals
      (.dict (written.map fun entry => (entry.key, entry.value))) read = true) :
    (Value.dict (written.map fun entry => (entry.key, entry.value))).All Restorable := by
  obtain ⟨others, room, success, lengths, lookups⟩ := found.of_dict equal
  obtain ⟨bound, -, -⟩ := readEntries_grows success
  have counted : readNat (leBytes 4 written.length ++ sorted.flatMap WrittenEntry.toBytes) 0 4 =
      written.length % 2 ^ 32 := ByteMemory.readNat_leBytes 4 _ _
  have countSmall : written.length < 2 ^ 32 := by
    rw [counted, List.length_nil] at bound
    have remainder := Nat.mod_lt written.length (show 0 < 2 ^ 32 by norm_num)
    omega
  rw [counted, Nat.mod_eq_of_lt countSmall, ← permuted.length_eq] at success
  have keys : (written.map WrittenEntry.key).Perm (others.map Prod.fst) := by
    apply (List.subperm_of_subset distinct ?_).perm_of_length_le
    · simp [lengths]
    · intro key mem
      obtain ⟨entry, inside, rfl⟩ := List.mem_map.mp mem
      obtain ⟨back, lookup, -⟩ := lookups entry inside
      exact List.mem_map.mpr ⟨_, mem_of_findEntry lookup, rfl⟩
  have whole : ∀ entry ∈ sorted, ReadsWhole entry.value entry.bytes ∧ ∃ back, findEntry entry.key
      others = some back ∧ entry.value.equals back = true := fun entry mem =>
    ⟨readsWhole_of_leaves (leaves entry (permuted.mem_iff.mp mem))
      entry.written, lookups entry (permuted.mem_iff.mp mem)⟩
  have full : others.length = ([] : List (List UInt8 × Value)).length + sorted.length := by
    rw [permuted.length_eq, ← lengths, List.length_nil, Nat.zero_add]
  have sized := entries_sized (leBytes 4 sorted.length) []
    (by simpa [permuted.length_eq] using success) full (fun key mem => Or.inr ((permuted.map
    _).mem_iff.mpr (keys.mem_iff.mpr mem))) ordered whole
  obtain ⟨-, readBack⟩ := @entries_read _ sorted [] others (leBytes 4 sorted.length) [] sized
    (by simpa [permuted.length_eq] using success) full
  rw [all_dict]
  refine ⟨⟨by simpa using countSmall, fun entry mem => ?_⟩, fun entry mem => ?_⟩
  · obtain ⟨origin, inside, rfl⟩ := List.mem_map.mp mem
    have small := sized origin (permuted.mem_iff.mpr inside)
    rw [length_serialize origin.written] at small
    exact small
  obtain ⟨origin, inside, rfl⟩ := List.mem_map.mp mem
  obtain ⟨-, back, readOrigin, foundOrigin⟩ := readBack origin (permuted.mem_iff.mpr inside)
  obtain ⟨other, foundOther, equalOther⟩ := lookups origin inside
  rw [foundOrigin, Option.some.injEq] at foundOther
  subst foundOther
  exact below (leaves origin inside) origin.written readOrigin equalOther

end Necessity

theorem restorable_of_read {depth : Nat} {value read : Value}
    {written : List UInt8} (leaves : value.All RoundTripLeaf)
    (serialized : serialize value = .ok written)
    (success : deserializeWithin depth written value.type = .ok read)
    (equal : value.equals read = true) : value.All Restorable := by
  induction depth generalizing value read written with
  | zero => cases success
  | succ depth ih =>
    have found := readAs_of_deserializeWithin success
    cases value with
    | null type =>
      rw [Value.equals, isNull_of_deserializeWithin success] at equal
      cases equal
    | array type elements =>
      rw [all_array] at leaves
      rw [serialize] at serialized
      split at serialized
      · cases serialized
      · rename_i bytes parts
        cases serialized
        exact restorable_array ih leaves.2 parts found equal
    | dict entries =>
      rw [all_dict] at leaves
      obtain ⟨distinct, each⟩ := leaves
      obtain ⟨entriesWritten, sorted, rfl, permuted, ordered, rfl⟩ :=
        exists_sorted_entries serialized
      rw [List.length_map] at found
      refine restorable_dict ih permuted ordered ?_ ?_ found equal
      · simpa [RoundTripLeaf, DistinctKeys, Function.comp_def] using distinct
      · exact fun entry mem =>
          each _ (List.mem_map.mpr ⟨entry, mem, rfl⟩)
    | _ => exact trivial

theorem readable_of_restorable {value : Value}
    (leaves : value.All RoundTripLeaf) (restorable : value.All Restorable) :
    value.All (Readable fun left right => left.equals right = true) := by
  apply All.imp _ (leaves.and restorable)
  rintro inside ⟨leaf, kept⟩
  refine ⟨kept, ?_, fun single => ?_⟩
  · cases inside with
    | dict entries => exact leaf
    | _ => trivial
  have roundTrips : RoundTrips inside := by
    cases inside with
    | null type => cases kept
    | array type elements | dict entries => cases single
    | _ => exact leaf
  have noCollection : inside.type ≠ .array ∧ inside.type ≠ .dict := by
    cases inside with
    | null type => cases kept
    | array type elements | dict entries => cases single
    | string text kind => cases kind <;> simp [Value.type, StringKind.type]
    | timestamp micros withTz => cases withTz <;> simp [Value.type]
    | _ => simp [Value.type]
  obtain ⟨bytes, back, written, read, equal⟩ := roundTrips
  refine ⟨bytes, back, written, fun depth => ?_, equal⟩
  rw [deserializeWithin_leaf noCollection.1 noCollection.2 bytes depth bytes.length]
  exact read

/-- When a collection is read back. -/
theorem collections_round_trip (value : Value) (leaves : value.All RoundTripLeaf) :
    RoundTrips value ↔ value.All Restorable := by
  constructor
  · rintro ⟨bytes, back, written, read, equal⟩
    exact restorable_of_read leaves written read equal
  · intro restorable
    obtain ⟨bytes, written, reads⟩ := read_back (readable_of_restorable leaves restorable)
    obtain ⟨back, read, same⟩ := reads _ (Nat.lt_succ_self _)
    exact ⟨bytes, back, written, read, same.equals⟩

theorem integer_round_trips (number : Int32) : RoundTrips (.integer number) := by
  obtain ⟨bytes, back, written, read, rfl⟩ := @readsBack_plain (.integer number) trivial rfl
  exact ⟨bytes, _, written, read _, by simp [Value.equals]⟩

theorem collections_round_trip_array :
    RoundTrips (.array .invalid [.dict [([107], .integer 3)], .integer 5]) := by
  refine (collections_round_trip
    (.array .invalid [.dict [([107], .integer 3)], .integer 5]) ?_).mpr ?_
  · simp [All, AllElements, AllEntries, RoundTripLeaf, DistinctKeys, integer_round_trips]
  · simp [All, AllElements, AllEntries, Restorable, Sized, byteSize, entriesSize]

/-- An array of integers and a dictionary with a `NULL`. -/
theorem collections_not_read_back :
    ((Value.array .integer [.integer 1]).All RoundTripLeaf ∧
      ¬ RoundTrips (.array .integer [.integer 1])) ∧
    ((Value.dict [([107], .null .integer)]).All RoundTripLeaf ∧
      ¬ RoundTrips (.dict [([107], .null .integer)])) := by
  refine ⟨⟨?_, ?_⟩, ?_, ?_⟩
  · simp [All, AllElements, RoundTripLeaf, integer_round_trips]
  · rintro ⟨bytes, back, written, read, equal⟩
    cases written
    cases read
    cases equal
  · simp [All, AllEntries, RoundTripLeaf, DistinctKeys]
  · rintro ⟨bytes, back, written, read, equal⟩
    simp only [serialize, serializeEntries, List.mergeSort_singleton] at written
    cases written
    cases read

/-- The value is equal to the one that is read from its bytes, and has the
type of that one. -/
def RestoresType (value : Value) : Prop :=
  ∃ bytes read, serialize value = .ok bytes ∧ deserialize bytes value.type = .ok read ∧ value.equals
    read = true ∧ read.type = value.type

theorem RestoresType.roundTrips {value : Value}
    (restored : RestoresType value) : RoundTrips value := by
  obtain ⟨bytes, read, written, success, equal, -⟩ := restored
  exact ⟨bytes, read, written, success, equal⟩

theorem RestoresType.timestamp (micros : Int64) : RestoresType (.timestamp micros false) := by
  obtain ⟨bytes, back, written, read, rfl⟩ := @readsBack_plain (.timestamp micros false) rfl rfl
  exact ⟨bytes, _, written, read _, by simp [Value.equals], rfl⟩

/-- The reader gives every timestamp the type without a time zone. -/
theorem RoundTrips.not_timestampTZ {micros : Int64} : ¬ RoundTrips (.timestamp micros true) := by
  rintro ⟨bytes, read, written, success, equal⟩
  rw [Value.type, if_pos rfl, deserialize, deserializeWithin] at success
  split at success
  · cases success
  · cases success
    simp [Value.equals] at equal

/-- Of the documents and the timestamps only the timestamps without a time
zone are read back. -/
theorem documents_and_timestamps_restored (value : Value) (present : value.isNull = false)
    (kind : value.type = .json ∨ value.type = .timestampTZ ∨
      value.type = .timestamp) : RestoresType value ↔ value.type = .timestamp := by
  cases value with
  | json root =>
    have lost : ¬ RestoresType (.json root) := fun restored =>
      RoundTrips.not_json restored.roundTrips
    simp [lost, Value.type]
  | timestamp micros withTz =>
    cases withTz with
    | true =>
      have lost : ¬ RestoresType (.timestamp micros true) :=
        fun restored => RoundTrips.not_timestampTZ restored.roundTrips
      simp [lost, Value.type]
    | false => simp [RestoresType.timestamp micros, Value.type]
  | null type => cases present
  | string text letters =>
    cases letters <;> simp [Value.type, StringKind.type] at kind
  | _ => simp [Value.type] at kind

theorem documents_and_timestamps_restored_epoch : RestoresType (.timestamp 0 false) :=
  (documents_and_timestamps_restored (.timestamp 0 false) rfl (Or.inr (Or.inr rfl))).mpr rfl

/-- The document `null` and the first instant with a time zone. -/
theorem document_and_timestampTZ_lost :
    (Value.type (.json .null) = .json ∧ ¬ RestoresType (.json .null)) ∧
      Value.type (.timestamp 0 true) = .timestampTZ ∧ ¬ RestoresType (.timestamp 0 true) :=
  ⟨⟨rfl, fun restored => RoundTrips.not_json restored.roundTrips⟩, rfl,
    fun restored => RoundTrips.not_timestampTZ restored.roundTrips⟩

end TypeSerializer

end KlyroDB
