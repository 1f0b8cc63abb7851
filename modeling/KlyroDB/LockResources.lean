import KlyroDB.CoreTypes

/-!
# Lock modes and lockable resources

The compatibility matrix of `concurrency/lock_mode.hpp` and the resources of
`concurrency/lock_resource.hpp`.
-/

namespace KlyroDB

inductive LockMode
  | shared
  | exclusive
  | intentShared
  | intentExclusive
  | sharedIntentExclusive
  deriving DecidableEq, Repr, Inhabited

/-- Whether a requested mode is compatible with an existing one. -/
def isCompatible (existing requested : LockMode) : Bool :=
  match existing with
  | .intentShared => requested != .exclusive
  | .intentExclusive => requested == .intentShared || requested == .intentExclusive
  | .shared => requested == .intentShared || requested == .shared
  | .sharedIntentExclusive => requested == .intentShared
  | .exclusive => false

theorem isCompatible_comm (first second : LockMode) :
    isCompatible first second = isCompatible second first := by
  cases first <;> cases second <;> rfl

inductive LockResourceType
  | database
  | schema
  | table
  | page
  | row
  | cell
  deriving DecidableEq, Repr, Inhabited

namespace LockResourceType

def toNat : LockResourceType → Nat
  | .database => 0
  | .schema => 1
  | .table => 2
  | .page => 3
  | .row => 4
  | .cell => 5

end LockResourceType

structure LockResource where
  type : LockResourceType
  databaseId : UInt32 := 0
  schemaId : UInt32 := 0
  tableId : UInt32 := 0
  pageId : UInt32 := 0xFFFFFFFF
  rowId : UInt32 := 0xFFFFFFFF
  columnId : UInt32 := 0
  deriving DecidableEq, Repr, Inhabited

namespace LockResource

def equal (first second : LockResource) : Bool :=
  first.type == second.type && first.databaseId == second.databaseId &&
    match first.type with
    | .database => true
    | .schema => first.schemaId == second.schemaId
    | .table =>
        first.schemaId == second.schemaId && first.tableId == second.tableId
    | .page =>
        first.schemaId == second.schemaId && first.tableId == second.tableId &&
          first.pageId == second.pageId
    | .row =>
        first.schemaId == second.schemaId && first.tableId == second.tableId &&
          first.pageId == second.pageId && first.rowId == second.rowId
    | .cell =>
        first.schemaId == second.schemaId && first.tableId == second.tableId &&
          first.pageId == second.pageId && first.rowId == second.rowId &&
          first.columnId == second.columnId

/-- One `h ^= value + 0x9e3779b9 + (h << 6) + (h >> 2)` of the hash, in
64-bit arithmetic with the identity `std::hash` of integers. -/
def mix (hash : UInt64) (value : UInt32) : UInt64 :=
  hash ^^^ (value.toUInt64 + (0x9e3779b9 : UInt64) + (hash <<< 6) + (hash >>> 2))

def mixWhen (condition : Bool) (value : UInt32) (hash : UInt64) : UInt64 :=
  if condition then mix hash value else hash

def hash (resource : LockResource) : UInt64 :=
  let rank := resource.type.toNat
  mix (UInt64.ofNat rank) resource.databaseId |> mixWhen (1 ≤ rank) resource.schemaId |> mixWhen
    (2 ≤ rank) resource.tableId |> mixWhen (3 ≤ rank) resource.pageId |> mixWhen (4 ≤ rank)
    resource.rowId |> mixWhen (5 ≤ rank) resource.columnId

theorem hash_eq_of_equal {first second : LockResource}
    (same : equal first second = true) : hash first = hash second := by
  obtain ⟨firstType, _, _, _, _, _, _⟩ := first
  obtain ⟨secondType, _, _, _, _, _, _⟩ := second
  simp only [equal, Bool.and_eq_true, beq_iff_eq] at same
  obtain ⟨⟨rfl, rfl⟩, fields⟩ := same
  cases firstType <;> simp_all [hash, mixWhen, LockResourceType.toNat]

/-- The resource with the fields its type does not use set to their
defaults. -/
def canonical (resource : LockResource) : LockResource :=
  let rank := resource.type.toNat
  let keep (level : Nat) (field default : UInt32) : UInt32 :=
    if level ≤ rank then field else default
  { type := resource.type
    databaseId := resource.databaseId
    schemaId := keep 1 resource.schemaId 0
    tableId := keep 2 resource.tableId 0
    pageId := keep 3 resource.pageId 0xFFFFFFFF
    rowId := keep 4 resource.rowId 0xFFFFFFFF
    columnId := keep 5 resource.columnId 0 }

/-- A table keyed by canonical resources is a table keyed by resources under
their own equality. -/
theorem equal_iff_canonical_eq (first second : LockResource) :
    equal first second = true ↔ first.canonical = second.canonical := by
  obtain ⟨firstType, _, _, _, _, _, _⟩ := first
  obtain ⟨secondType, _, _, _, _, _, _⟩ := second
  cases firstType <;> cases secondType <;>
    simp [equal, canonical, LockResourceType.toNat, and_assoc]

theorem hash_eq_of_canonical_eq {first second : LockResource}
    (same : first.canonical = second.canonical) : hash first = hash second :=
  hash_eq_of_equal ((equal_iff_canonical_eq first second).mpr same)

end LockResource

end KlyroDB
