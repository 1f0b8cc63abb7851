import KlyroDB.DeserializerReads
import KlyroDB.IndexKeys
import KlyroDB.ValueRoundTrip

/-!
# Keys read back from their bytes

A key is framed by the number of its components and the length of each, with
one length kept for `NULL`.  The number of components is kept in 32 bits.
-/

namespace KlyroDB

open ByteMemory
open TracedReads

namespace IndexKey

open Traced (Runs copyAt fail readAt)

/-- `NULL`, or a value of the type that is read back as the same value, in
whatever sense of sameness. -/
def IsComponent (same : Value → Value → Prop) (value : Value) (type : TypeID) : Prop :=
  value.isNull = true ∨ value.isNull = false ∧ value.type = type ∧ ∃ bytes back,
    TypeSerializer.serialize value = .ok bytes ∧ bytes.length < nullLength ∧
    TypeSerializer.deserialize bytes type = .ok back ∧ same value back

/-- A key with at most as many components as there are types. -/
def IsKey (same : Value → Value → Prop) (types : List TypeID) (key : IndexKey) : Prop :=
  key.values.length ≤ types.length ∧
    List.Forall₂ (IsComponent same) key.values (types.take key.values.length)

/-- Component by component both `NULL`, or the same value. -/
def SameKey (same : Value → Value → Prop) (first second : IndexKey) : Prop :=
  List.Forall₂ (fun left right => left.isNull = right.isNull ∧
    (left.isNull = false → same left right)) first.values second.values

def traceComponents (bytes : List UInt8) : List TypeID → Nat → Traced KeyError (List Value)
  | [], _ => return []
  | type :: types, offset =>
      if bytes.length < offset + 4 then fail .bounds
      else do
        let length ← readAt bytes offset 4
        if length = nullLength then
          let rest ← traceComponents bytes types (offset + 4)
          return .null type :: rest
        else if bytes.length < offset + 4 + length then fail .payloadBounds
        else
          let part ← copyAt bytes (offset + 4) length
          let value ← (TypeSerializer.traceWithin (part.length + 1) part type).mapError .value
          let rest ← traceComponents bytes types (offset + 4 + length)
          return value :: rest

/-- `deserialize` with its reads. -/
def trace (bytes : List UInt8) (types : List TypeID) : Traced KeyError IndexKey :=
  if bytes.length < 4 then fail .spanTooSmall
  else do
    let count ← readAt bytes 0 4
    if types.length < count then fail .typeCountMismatch
    else
      let values ← traceComponents bytes (types.take count) 4
      return ⟨values⟩

variable {same : Value → Value → Prop} {types : List TypeID} {bytes : List UInt8}

theorem traceComponents_runs (bytes : List UInt8) (types : List TypeID) (offset : Nat) :
    Runs (traceComponents bytes types offset) (readComponents bytes types offset) := by
  induction types generalizing offset with
  | nil => exact .pure _
  | cons type types ih =>
    unfold traceComponents readComponents
    dsimp only
    split_ifs with short isNull long
    · exact .fail _
    · refine .readAt (by omega) ?_
      simp only [isNull, if_true]
      refine (ih _).bind (fun failure failed => ?_) fun rest done => ?_
      · simp only [failed]
      · simp only [done]
        exact .pure _
    · refine .readAt (by omega) ?_
      simp only [isNull, long, if_true, if_false]
      exact .fail _
    · refine .readAt (by omega) ?_
      simp only [isNull, long, if_false]
      refine .copyAt (by omega) ?_
      have inner := (TypeSerializer.traceWithin_runs
        ((slice bytes (offset + 4) (readNat bytes offset 4)).length + 1)
        (slice bytes (offset + 4) (readNat bytes offset 4)) type).mapError KeyError.value
      rw [← TypeSerializer.deserialize] at inner
      cases found : TypeSerializer.deserialize
          (slice bytes (offset + 4) (readNat bytes offset 4)) type with
      | error failure =>
        rw [found] at inner
        exact inner.bind (fun _ failed => by cases failed; rfl) nofun
      | ok value =>
        rw [found] at inner
        refine inner.bind nofun fun _ done => ?_
        cases done
        refine (ih _).bind (fun failure failed => ?_) fun rest done => ?_
        · simp only [failed]
        · simp only [done]
          exact .pure _

theorem trace_runs (bytes : List UInt8) (types : List TypeID) :
    Runs (trace bytes types) (deserialize bytes types) := by
  unfold trace deserialize
  dsimp only
  split_ifs with short many
  · exact .fail _
  · refine .readAt (by omega) ?_
    simp only [many, if_true]
    exact .fail _
  · refine .readAt (by omega) ?_
    simp only [many, if_false]
    refine (traceComponents_runs bytes _ 4).bind (fun failure failed => ?_) fun values done => ?_
    · simp only [failed]
    · simp only [done]
      exact .pure _

theorem readComponents_serialized {values : List Value}
    (components : List.Forall₂ (IsComponent same) values types) :
    ∃ written, serializeComponents values = .ok written ∧ ∀ front : List UInt8,
      ∃ back, readComponents (front ++ written) types front.length = .ok back ∧
        SameKey same ⟨values⟩ ⟨back⟩ := by
  induction components with
  | nil => exact ⟨[], rfl, fun front => ⟨[], rfl, .nil⟩⟩
  | @cons value type values types component _ induction =>
    obtain ⟨more, written, reads⟩ := induction
    rcases component with isNull | ⟨present, typed, payload, back, serialized, fits, read, alike⟩
    · refine ⟨leBytes 4 nullLength ++ more, by
        simp [serializeComponents, serializeComponent, isNull, written], fun front => ?_⟩
      obtain ⟨rest, later, matched⟩ := reads (front ++ leBytes 4 nullLength)
      have length := @readNat_append front more 4 nullLength (by decide)
      rw [List.append_assoc, List.length_append, length_leBytes] at later
      refine ⟨.null type :: rest, ?_, .cons ⟨isNull, fun present => ?_⟩ matched⟩
      · rw [readComponents, if_neg (by simp), length, if_pos rfl, later]
      · rw [isNull] at present
        cases present
    refine ⟨leBytes 4 payload.length ++ payload ++ more, by
      simp [serializeComponents, serializeComponent, present, serialized, written],
      fun front => ?_⟩
    obtain ⟨rest, later, matched⟩ := reads (front ++ (leBytes 4 payload.length ++ payload))
    have small : payload.length < 256 ^ 4 := fits.trans (by decide)
    have length := readNat_append front (payload ++ more) small
    have inside := slice_append_middle (front ++ leBytes 4 payload.length) payload more
    rw [List.append_assoc, List.length_append, List.length_append, length_leBytes,
      ← Nat.add_assoc] at later
    rw [List.length_append, length_leBytes, List.append_assoc] at inside
    rw [List.append_assoc] at later ⊢
    refine ⟨back :: rest, ?_,
      .cons ⟨present.trans (TypeSerializer.isNull_of_deserializeWithin read).symm,
        fun _ => alike⟩ matched⟩
    rw [readComponents, if_neg (by simp), length, if_neg fits.ne, if_neg (by simp; omega), inside]
    simp only [read]
    rw [later]

theorem SameKey.euclidean
    (euclidean : ∀ first second back, same first back → same second back → same first second)
    {first second back : IndexKey} (alike : SameKey same first back)
    (also : SameKey same second back) : SameKey same first second := by
  obtain ⟨firsts⟩ := first
  obtain ⟨seconds⟩ := second
  obtain ⟨backs⟩ := back
  unfold SameKey at *
  dsimp only at *
  induction alike generalizing seconds with
  | nil =>
    cases also
    exact .nil
  | cons head _ induction =>
    cases also with
    | cons other others =>
      refine .cons ⟨head.1.trans other.1.symm, fun present => ?_⟩ (induction _ others)
      exact euclidean _ _ _ (head.2 present) (other.2 (other.1.trans (head.1.symm.trans present)))

theorem serialize_key {key : IndexKey} (isKey : IsKey same types key) :
    ∃ written, serializeComponents key.values = .ok written ∧
      key.serialize = .ok (leBytes 4 key.values.length ++ written) := by
  obtain ⟨written, serialized, -⟩ := readComponents_serialized isKey.2
  exact ⟨written, serialized, by rw [serialize, serialized]⟩

theorem deserialize_serialized {key : IndexKey} (isKey : IsKey same types key)
    (few : key.values.length < 2 ^ 32) (serialized : key.serialize = .ok bytes) :
    ∃ back, deserialize bytes types = .ok back ∧ SameKey same key back := by
  obtain ⟨written, components, reads⟩ := readComponents_serialized isKey.2
  rw [serialize, components] at serialized
  cases serialized
  obtain ⟨back, read, alike⟩ := reads (leBytes 4 key.values.length)
  rw [length_leBytes] at read
  have count := @TypeSerializer.readNat_leBytes 4 key.values.length few written
  refine ⟨⟨back⟩, ?_, alike⟩
  rw [deserialize, if_neg (by simp), count, if_neg (not_lt.mpr isKey.1), read]

/-- A key of fewer than 2^32 components that are read back is read back; such
keys with the same bytes are the same; and `deserialize` throws or returns
without a read behind the given bytes. -/
theorem key_round_trip (types : List TypeID) (same : Value → Value → Prop) :
    (∀ key, IsKey same types key → key.values.length < 2 ^ 32 →
      ∃ bytes back, key.serialize = .ok bytes ∧ deserialize bytes types = .ok back ∧
        SameKey same key back) ∧
    ((∀ first second back, same first back → same second back → same first second) →
      ∀ first second, IsKey same types first → IsKey same types second →
        first.values.length < 2 ^ 32 → second.values.length < 2 ^ 32 →
        first.serialize = second.serialize → SameKey same first second) ∧
    ∀ bytes, (trace bytes types).result = deserialize bytes types ∧
      ∀ access ∈ (trace bytes types).reads, access.Inside := by
  refine ⟨fun key isKey few => ?_, ?_, fun bytes => ?_⟩
  · obtain ⟨written, -, whole⟩ := serialize_key isKey
    obtain ⟨back, read, alike⟩ := deserialize_serialized isKey few whole
    exact ⟨_, back, whole, read, alike⟩
  · intro euclidean first second firstKey secondKey firstFew secondFew equal
    obtain ⟨written, -, whole⟩ := serialize_key firstKey
    obtain ⟨back, read, alike⟩ := deserialize_serialized firstKey firstFew whole
    obtain ⟨again, reread, also⟩ :=
      deserialize_serialized secondKey secondFew (equal.symm.trans whole)
    cases read.symm.trans reread
    exact alike.euclidean euclidean also
  · have runs := trace_runs bytes types
    exact ⟨runs.result, runs.inside⟩

/-- A key of an integer and a `NULL`. -/
theorem key_round_trip_integer_null :
    ∃ bytes back, serialize ⟨[.integer 5, .null .text]⟩ = .ok bytes ∧
      deserialize bytes [.integer, .text, .boolean] = .ok back ∧
      SameKey Eq ⟨[.integer 5, .null .text]⟩ back := by
  refine (key_round_trip [.integer, .text, .boolean] Eq).1 _ ⟨by decide, ?_⟩ (by decide)
  exact .cons (.inr ⟨rfl, rfl, leBytes 4 5, .integer 5, rfl, by decide, rfl, rfl⟩)
    (.cons (.inl rfl) .nil)

end IndexKey

end KlyroDB
