import KlyroDB.TracedReads
import KlyroDB.TypeSerializer

/-!
# The bytes that the deserializer reads

The deserializer is run once more with a record of its reads.  Every read is
inside its buffer, and since the buffer of an element is shorter than the one
around it, the recursion ends.
-/

namespace KlyroDB

open ByteMemory
open TracedReads

namespace TypeSerializer

open Traced (Runs copyAt fail readAt)

section Traced

variable (read : List UInt8 → TypeID → Traced TypeError Value) (bytes : List UInt8)

def traceElement (offset : Nat) : Traced TypeError (Value × Nat) :=
  if bytes.length < offset + 2 then fail .bufferTooSmall
  else do
    let code ← readAt bytes offset 2
    if bytes.length < offset + 6 then fail .bufferTooSmall
    else
      let size ← readAt bytes (offset + 2) 4
      if bytes.length < offset + 6 + size then fail .bufferTooSmall
      else
        let part ← copyAt bytes (offset + 6) size
        match TypeID.ofCode code with
        | none => fail .notImplemented
        | some type =>
            let value ← read part type
            return (value, offset + 6 + size)

def traceElements : Nat → Nat → Traced TypeError (List Value)
  | 0, _ => return []
  | count + 1, offset => do
      let (value, next) ← traceElement read bytes offset
      let rest ← traceElements count next
      return value :: rest

def traceEntries : Nat → Nat → List (List UInt8 × Value) →
    Traced TypeError (List (List UInt8 × Value))
  | 0, _, entries => return entries
  | count + 1, offset, entries =>
      if bytes.length < offset + 4 then fail .bufferTooSmall
      else do
        let size ← readAt bytes offset 4
        if bytes.length < offset + 4 + size then fail .bufferTooSmall
        else
          let key ← copyAt bytes (offset + 4) size
          let (value, next) ← traceElement read bytes (offset + 4 + size)
          traceEntries count next (setEntry key value entries)

/-- A value that is made of one number. -/
def traceNumber (width : Nat) (make : Nat → Value) : Traced TypeError Value := do
  let number ← readAt bytes 0 width
  return make number

/-- A value that is made of all bytes. -/
def traceAll (make : List UInt8 → Value) : Traced TypeError Value := do
  let all ← copyAt bytes 0 bytes.length
  return make all

end Traced

/-- `deserializeWithin` with its reads. -/
def traceWithin : Nat → List UInt8 → TypeID → Traced TypeError Value
  | 0, _, _ => fail .tooDeep
  | depth + 1, bytes, type =>
      if bytes.length < neededSize type then fail .bufferTooSmall
      else
        match type with
        | .boolean => traceNumber bytes 1 fun number => .boolean (number ≠ 0)
        | .smallInt => traceNumber bytes 2 fun number => .smallInt (UInt16.ofNat number).toInt16
        | .integer => traceNumber bytes 4 fun number => .integer (UInt32.ofNat number).toInt32
        | .bigInt => traceNumber bytes 8 fun number => .bigInt (UInt64.ofNat number).toInt64
        | .real => traceNumber bytes 4 fun number => .real (UInt32.ofNat number)
        | .double => traceNumber bytes 8 fun number => .double (UInt64.ofNat number)
        | .numeric => do
            let coefficient ← readAt bytes 0 8
            let scale ← readAt bytes 8 1
            return .numeric ⟨(UInt64.ofNat coefficient).toInt64, UInt8.ofNat scale⟩
        | .char => traceAll bytes (.string · .char)
        | .varChar => traceAll bytes (.string · .varChar)
        | .text => traceAll bytes (.string · .text)
        | .bytea => traceAll bytes .bytea
        | .date => traceNumber bytes 4 fun number => .date (UInt32.ofNat number).toInt32
        | .time => traceNumber bytes 8 fun number => .time (UInt64.ofNat number).toInt64
        | .timestamp | .timestampTZ =>
            traceNumber bytes 8 fun number => .timestamp (UInt64.ofNat number).toInt64 false
        | .interval => do
            let months ← readAt bytes 0 4
            let days ← readAt bytes 4 4
            let micros ← readAt bytes 8 8
            return .interval ⟨(UInt32.ofNat months).toInt32, (UInt32.ofNat days).toInt32,
              (UInt64.ofNat micros).toInt64⟩
        | .uuid => do
            let copy ← copyAt bytes 0 16
            if whole : copy.length = 16 then return .uuid ⟨copy, whole⟩
            else fail .bufferTooSmall
        | .json => traceAll bytes fun all => .json (JsonNode.parse all)
        | .array => do
            let count ← readAt bytes 0 4
            let elements ← traceElements (traceWithin depth) bytes count 4
            return .array .invalid elements
        | .dict => do
            let count ← readAt bytes 0 4
            let entries ← traceEntries (traceWithin depth) bytes count 4 []
            return .dict entries
        | .null | .enum | .invalid => fail .notImplemented

section Runs

variable {read : List UInt8 → TypeID → Traced TypeError Value}
  {plain : List UInt8 → TypeID → Except TypeError Value}
  (runs : ∀ part type, Runs (read part type) (plain part type)) (bytes : List UInt8)

include runs

theorem traceElement_runs (offset : Nat) :
    Runs (traceElement read bytes offset) (readElement plain bytes offset) := by
  unfold traceElement readElement
  dsimp only
  split_ifs with noType noSize short
  · exact .fail _
  · exact .readAt (by omega) (.fail _)
  · refine .readAt (by omega) (.readAt (by omega) ?_)
    simp only [short, if_true]
    exact .fail _
  · refine .readAt (by omega) (.readAt (by omega) ?_)
    simp only [short, if_false]
    refine .copyAt (by omega) ?_
    cases TypeID.ofCode (readNat bytes offset 2) with
    | none => exact .fail _
    | some type =>
      refine (runs _ type).bind (fun failure failed => ?_) fun value done => ?_
      · simp only [failed]
      · simp only [done]
        exact .pure _

theorem traceElements_runs (count offset : Nat) :
    Runs (traceElements read bytes count offset) (readElements plain bytes count offset) := by
  induction count generalizing offset with
  | zero => exact .pure _
  | succ count ih =>
    rw [readElements]
    refine (traceElement_runs runs bytes offset).bind (fun failure failed => ?_)
      fun found done => ?_
    · simp only [failed]
    simp only [done]
    refine (ih found.2).bind (fun failure failed => ?_) fun rest done => ?_
    · simp only [failed]
    · simp only [done]
      exact .pure _

theorem traceEntries_runs (count offset : Nat) (entries : List (List UInt8 × Value)) :
    Runs (traceEntries read bytes count offset entries)
      (readEntries plain bytes count offset entries) := by
  induction count generalizing offset entries with
  | zero => exact .pure _
  | succ count ih =>
    unfold traceEntries readEntries
    dsimp only
    split_ifs with noSize short
    · exact .fail _
    · refine .readAt (by omega) ?_
      simp only [short, if_true]
      exact .fail _
    · refine .readAt (by omega) ?_
      simp only [short, if_false]
      refine .copyAt (by omega) ?_
      refine (traceElement_runs runs bytes _).bind (fun failure failed => ?_) fun found done => ?_
      · simp only [failed]
      · simp only [done]
        exact ih _ _

end Runs

theorem traceNumber_runs {bytes : List UInt8} {width : Nat} (room : width ≤ bytes.length)
    (make : Nat → Value) :
    Runs (traceNumber bytes width make) (.ok (make (readNat bytes 0 width))) :=
  .readAt (by omega) (.pure _)

theorem traceAll_runs (bytes : List UInt8) (make : List UInt8 → Value) :
    Runs (traceAll bytes make) (.ok (make bytes)) := by
  refine .copyAt (by omega) ?_
  rw [slice, List.drop_zero, List.take_length]
  exact .pure _

theorem traceWithin_runs (depth : Nat) (bytes : List UInt8) (type : TypeID) :
    Runs (traceWithin depth bytes type) (deserializeWithin depth bytes type) := by
  induction depth generalizing bytes type with
  | zero => exact .fail _
  | succ depth ih =>
    unfold traceWithin deserializeWithin
    by_cases short : bytes.length < neededSize type
    · rw [if_pos short, if_pos short]
      exact .fail _
    rw [if_neg short, if_neg short]
    have room := Nat.le_of_not_lt short
    cases type with
    | char | varChar | text | bytea | json => exact traceAll_runs bytes _
    | null | enum | invalid => exact .fail _
    | numeric =>
      simp only [neededSize] at room
      exact .readAt (by omega) (.readAt (by omega) (.pure _))
    | interval =>
      simp only [neededSize] at room
      exact .readAt (by omega) (.readAt (by omega) (.readAt (by omega) (.pure _)))
    | uuid =>
      simp only [neededSize] at room
      have whole : 0 + 16 ≤ bytes.length := by omega
      refine .copyAt whole ?_
      rw [dif_pos (length_slice whole), dif_pos whole]
      exact .pure _
    | array =>
      simp only [neededSize] at room
      refine .readAt (by omega) ?_
      refine (traceElements_runs ih bytes _ _).bind (fun failure failed => ?_) fun found done => ?_
      · simp only [failed]
      · simp only [done]
        exact .pure _
    | dict =>
      simp only [neededSize] at room
      refine .readAt (by omega) ?_
      refine (traceEntries_runs ih bytes _ _ _).bind (fun failure failed => ?_) fun found done => ?_
      · simp only [failed]
      · simp only [done]
        exact .pure _
    | _ => exact traceNumber_runs room _

section Depth

variable {read : List UInt8 → TypeID → Except TypeError Value} {bytes : List UInt8}
  (ends : ∀ part type, part.length < bytes.length → read part type ≠ .error .tooDeep)

include ends

/-- The bytes of an element are fewer than those around it. -/
theorem readElement_ends (offset : Nat) : readElement read bytes offset ≠ .error .tooDeep := by
  unfold readElement
  dsimp only
  split_ifs with noType noSize short
  · simp
  · simp
  · simp
  · have shorter : (slice bytes (offset + 6) (readNat bytes (offset + 2) 4)).length <
        bytes.length := by
      rw [length_slice (by omega)]
      omega
    cases TypeID.ofCode (readNat bytes offset 2) with
    | none => simp
    | some type =>
      have inner := ends _ type shorter
      cases found : read (slice bytes (offset + 6) (readNat bytes (offset + 2) 4)) type with
      | error failure => simpa [found] using inner
      | ok value => simp [found]

theorem readElements_ends (count offset : Nat) :
    readElements read bytes count offset ≠ .error .tooDeep := by
  induction count generalizing offset with
  | zero => simp [readElements]
  | succ count ih =>
    rw [readElements]
    have first := readElement_ends ends offset
    cases found : readElement read bytes offset with
    | error failure => simpa [found] using first
    | ok next =>
      have later := ih next.2
      cases rest : readElements read bytes count next.2 with
      | error failure => simpa [rest] using later
      | ok values => simp [rest]

theorem readEntries_ends (count offset : Nat) (entries : List (List UInt8 × Value)) :
    readEntries read bytes count offset entries ≠ .error .tooDeep := by
  induction count generalizing offset entries with
  | zero => simp [readEntries]
  | succ count ih =>
    rw [readEntries]
    dsimp only
    split_ifs with noSize short
    · simp
    · simp
    have first := readElement_ends ends (offset + 4 + readNat bytes offset 4)
    cases found : readElement read bytes (offset + 4 + readNat bytes offset 4) with
    | error failure => simpa [found] using first
    | ok next => exact ih _ _

end Depth

theorem deserializeWithin_ends {depth : Nat} {bytes : List UInt8} (deep : bytes.length < depth)
    (type : TypeID) : deserializeWithin depth bytes type ≠ .error .tooDeep := by
  induction depth generalizing bytes type with
  | zero => simp at deep
  | succ depth ih =>
    have inner : ∀ part type, part.length < bytes.length →
        deserializeWithin depth part type ≠ .error .tooDeep :=
      fun part type shorter => ih (by omega) type
    unfold deserializeWithin
    by_cases short : bytes.length < neededSize type
    · simp [short]
    rw [if_neg short]
    cases type with
    | array =>
      have elements := readElements_ends inner (readNat bytes 0 4) 4
      cases found : readElements (deserializeWithin depth) bytes (readNat bytes 0 4) 4 with
      | error failure => simpa [found] using elements
      | ok values => simp
    | dict =>
      have each := readEntries_ends inner (readNat bytes 0 4) 4 []
      cases found : readEntries (deserializeWithin depth) bytes (readNat bytes 0 4) 4 [] with
      | error failure => simpa [found] using each
      | ok entries => simp
    | uuid =>
      dsimp only
      split <;> simp
    | _ => simp

/-- The run of the deserializer that records its reads has the same result and
reads inside its buffers, and the result is a value or an exception of the
code. -/
theorem deserialize_reads_inside (bytes : List UInt8) (type : TypeID) :
    (traceWithin (bytes.length + 1) bytes type).result = deserialize bytes type ∧
      (∀ access ∈ (traceWithin (bytes.length + 1) bytes type).reads, access.Inside) ∧
      ((∃ value, deserialize bytes type = .ok value) ∨
        deserialize bytes type = .error .bufferTooSmall ∨
        deserialize bytes type = .error .notImplemented) := by
  have runs := traceWithin_runs (bytes.length + 1) bytes type
  refine ⟨runs.result, runs.inside, ?_⟩
  have ends : deserialize bytes type ≠ .error .tooDeep :=
    deserializeWithin_ends (Nat.lt_succ_self _) type
  cases found : deserialize bytes type with
  | ok value => exact Or.inl ⟨value, rfl⟩
  | error failure =>
    cases failure with
    | tooDeep => exact absurd found ends
    | bufferTooSmall => simp
    | notImplemented => simp

end TypeSerializer

end KlyroDB
