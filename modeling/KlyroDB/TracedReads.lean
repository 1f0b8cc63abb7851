import KlyroDB.ByteMemory

/-!
# Computations that record their reads

A computation over byte buffers that may fail, together with the ranges that
it reads.  The contents of a buffer come out of it by a recorded read only.
-/

namespace TracedReads

open ByteMemory

/-- A read of `width` bytes from a buffer of `size` bytes. -/
structure Access where
  size : Nat
  offset : Nat
  width : Nat

def Access.Inside (access : Access) : Prop :=
  access.offset + access.width ≤ access.size

structure Traced (Failure Result : Type) where
  reads : List Access
  result : Except Failure Result

namespace Traced

variable {Failure Result Next : Type}

def fail (failure : Failure) : Traced Failure Result := ⟨[], .error failure⟩

def bind (first : Traced Failure Result) (next : Result → Traced Failure Next) :
    Traced Failure Next :=
  match first.result with
  | .error failure => ⟨first.reads, .error failure⟩
  | .ok value => ⟨first.reads ++ (next value).reads, (next value).result⟩

instance : Monad (Traced Failure) where
  pure value := ⟨[], .ok value⟩
  bind := bind

def readAt (buffer : List UInt8) (offset width : Nat) : Traced Failure Nat :=
  ⟨[⟨buffer.length, offset, width⟩], .ok (readNat buffer offset width)⟩

def copyAt (buffer : List UInt8) (offset width : Nat) : Traced Failure (List UInt8) :=
  ⟨[⟨buffer.length, offset, width⟩], .ok (slice buffer offset width)⟩

/-- The computation under other names of its failures. -/
def mapError {Other : Type} (rename : Failure → Other) (traced : Traced Failure Result) :
    Traced Other Result :=
  ⟨traced.reads, traced.result.mapError rename⟩

/-- The result is the given one, and all reads are inside their buffers. -/
structure Runs (traced : Traced Failure Result) (plain : Except Failure Result) : Prop where
  result : traced.result = plain
  inside : ∀ access ∈ traced.reads, access.Inside

theorem Runs.fail (failure : Failure) :
    Runs (Traced.fail failure : Traced Failure Result) (.error failure) := ⟨rfl, nofun⟩

theorem Runs.pure (value : Result) : Runs (Pure.pure value : Traced Failure Result) (.ok value) :=
  ⟨rfl, nofun⟩

theorem Runs.bind {first : Traced Failure Result} {next : Result → Traced Failure Next}
    {plain : Except Failure Result} {result : Except Failure Next} (own : Runs first plain)
    (fails : ∀ failure, plain = .error failure → result = .error failure)
    (later : ∀ value, plain = .ok value → Runs (next value) result) :
    Runs (first >>= next) result := by
  obtain ⟨reads, failure | value⟩ := first
  · exact ⟨(fails failure own.result.symm).symm, own.inside⟩
  · obtain ⟨same, inside⟩ := later value own.result.symm
    exact ⟨same, List.forall_mem_append.mpr ⟨own.inside, inside⟩⟩

theorem Runs.mapError {Other : Type} (rename : Failure → Other)
    {traced : Traced Failure Result} {plain : Except Failure Result} (runs : Runs traced plain) :
    Runs (traced.mapError rename) (plain.mapError rename) :=
  ⟨congrArg (Except.mapError rename) runs.result, runs.inside⟩

variable {buffer : List UInt8} {offset width : Nat} {plain : Except Failure Next}

theorem Runs.readAt {next : Nat → Traced Failure Next} (room : offset + width ≤ buffer.length)
    (later : Runs (next (readNat buffer offset width)) plain) :
    Runs (Traced.readAt buffer offset width >>= next) plain :=
  ⟨later.result, List.forall_mem_cons.mpr ⟨room, later.inside⟩⟩

theorem Runs.copyAt {next : List UInt8 → Traced Failure Next}
    (room : offset + width ≤ buffer.length)
    (later : Runs (next (slice buffer offset width)) plain) :
    Runs (Traced.copyAt buffer offset width >>= next) plain :=
  ⟨later.result, List.forall_mem_cons.mpr ⟨room, later.inside⟩⟩

end Traced

end TracedReads
