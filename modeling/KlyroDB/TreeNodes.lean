import KlyroDB.CoreTypes
import KlyroDB.IndexKeys
import Mathlib.Data.List.Sort

/-!
# Nodes of the B+ tree

`index/bplus_tree_node.cpp`, `index/bplus_tree_leaf.cpp` and
`index/bplus_tree_internal.cpp`.  A node keeps the fields of its header and the
offset and entry of every slot.  Offsets are computed with a
`sizeof(PageHeader)` of 40 for a payload that starts at byte 36, so a page of
`n` bytes has the `page_size()` of `n + 4`, and the slots start at 88.
-/

namespace KlyroDB

open ByteMemory

/-- How a call on a tree fails: with a status, with an exception of a key, by
using a slot that refers to no entry, or by never leaving a loop over page
links. -/
inductive TreeFailure
  | status (status : Status)
  | thrown (failure : KeyError)
  | staleSlot
  | outOfRounds
  deriving DecidableEq, Repr

namespace IndexKey

def bytes (key : IndexKey) : Except TreeFailure (List UInt8) :=
  key.serialize.mapError .thrown

def ofBytes (bytes : List UInt8) (types : List TypeID) : Except TreeFailure IndexKey :=
  (deserialize bytes types).mapError .thrown

end IndexKey

inductive NodeEntry
  | record (keyBytes : List UInt8) (recordId : RecordID)
  | child (keyBytes : List UInt8) (pageId : Nat)
  deriving DecidableEq, Repr

def NodeEntry.size : NodeEntry → Nat
  | .record keyBytes _ => keyBytes.length + 8
  | .child keyBytes _ => keyBytes.length + 4

structure BPlusTreeNode where
  isLeaf : Bool
  level : Nat
  keyCount : Nat
  freeSpace : Nat
  lowerBound : Nat
  upperBound : Nat
  parentPageId : Nat
  nextPageId : Nat
  prevPageId : Nat
  slots : Nat → Option (Nat × NodeEntry)

namespace BPlusTreeNode

def sizeofSlot : Nat := 4

def sub16 (left right : Nat) : Nat := (left + 2 ^ 16 - right % 2 ^ 16) % 2 ^ 16

def updateFreeSpace (node : BPlusTreeNode) : BPlusTreeNode :=
  { node with freeSpace := sub16 node.upperBound node.lowerBound }

/-- Both `init` functions on a new page of the given size, where an internal
node keeps zeros in the place of the links. -/
def empty (isLeaf : Bool) (level pageSize : Nat) : BPlusTreeNode :=
  updateFreeSpace
    { isLeaf := isLeaf
      level := level % 2 ^ 8
      keyCount := 0
      freeSpace := 0
      lowerBound := 88
      upperBound := (pageSize + 4) % 2 ^ 16
      parentPageId := PageID.invalid
      nextPageId := if isLeaf then PageID.invalid else 0
      prevPageId := if isLeaf then PageID.invalid else 0
      slots := fun _ => none }

def makeSlotRoom (node : BPlusTreeNode) (index : Nat) : BPlusTreeNode :=
  { node with
    slots := fun slot =>
      if index < slot ∧ slot ≤ node.keyCount then node.slots (slot - 1)
      else node.slots slot
    keyCount := (node.keyCount + 1) % 2 ^ 16
    lowerBound := (node.lowerBound + sizeofSlot) % 2 ^ 16 }

def eraseSlot (node : BPlusTreeNode) (index : Nat) : BPlusTreeNode :=
  { node with
    slots := fun slot =>
      if index ≤ slot ∧ slot + 1 < node.keyCount then node.slots (slot + 1)
      else node.slots slot
    keyCount := sub16 node.keyCount 1
    lowerBound := sub16 node.lowerBound sizeofSlot }

def writeEntry (node : BPlusTreeNode) (index : Nat) (entry : NodeEntry) : BPlusTreeNode :=
  let offset := sub16 node.upperBound entry.size
  { node with
    upperBound := offset
    slots := Function.update node.slots index (some (offset, entry)) }

def slotOffset (node : BPlusTreeNode) (slot : Nat) : Nat :=
  (node.slots slot).elim 0 Prod.fst

def slotLength (node : BPlusTreeNode) (slot : Nat) : Nat :=
  (node.slots slot).elim 0 fun entry => entry.2.size

/-- A round of the loop in `compact`, with the cursor in the upper bound. -/
def moveEntry (node : BPlusTreeNode) (slot : Nat) : BPlusTreeNode :=
  let cursor := sub16 node.upperBound (node.slotLength slot)
  { node with
    upperBound := cursor
    slots := Function.update node.slots slot
      ((node.slots slot).map fun entry => (cursor, entry.2)) }

/-- Moves the entries to the end of the page, the one with the largest offset
first.  Entries are not empty, so that no two of them have one offset. -/
def compact (pageSize : Nat) (node : BPlusTreeNode) : BPlusTreeNode :=
  let order := (List.range node.keyCount).insertionSort fun first second =>
    node.slotOffset second ≤ node.slotOffset first
  updateFreeSpace (order.foldl moveEntry { node with upperBound := (pageSize + 4) % 2 ^ 16 })

/-- Compacts a page that has no room for an entry and its slot. -/
def reserve (pageSize : Nat) (node : BPlusTreeNode) (size : Nat) : BPlusTreeNode :=
  if node.freeSpace < size + sizeofSlot then node.compact pageSize else node

/-- The end of both `insert` functions: a slot for the entry and its bytes. -/
def placeEntry (node : BPlusTreeNode) (index : Nat) (entry : NodeEntry) : BPlusTreeNode :=
  updateFreeSpace ((node.makeSlotRoom index).writeEntry index entry)

/-- The end of both `split` functions.  The lower bound is reduced by the number
of keys that are left beyond the middle, which is zero then. -/
def keepLeft (pageSize : Nat) (node : BPlusTreeNode) (middle : Nat) : BPlusTreeNode :=
  let node := { node with keyCount := middle }
  compact pageSize
    { node with
      lowerBound := sub16 node.lowerBound ((node.keyCount - middle) * sizeofSlot) }

end BPlusTreeNode

namespace BPlusTreeLeaf

open BPlusTreeNode

def entryAt (node : BPlusTreeNode) (index : Nat) : Except TreeFailure (List UInt8 × RecordID) :=
  match node.slots index with
  | some (_, .record keyBytes recordId) => .ok (keyBytes, recordId)
  | _ => .error .staleSlot

def lowerBoundFrom (node : BPlusTreeNode) (search : List UInt8) :
    Nat → Nat → Except TreeFailure (Nat × Bool)
  | 0, index => .ok (index, false)
  | rounds + 1, index => do
      let (key, _) ← entryAt node index
      let order := compareBytes key search
      if order = 0 then .ok (index, true)
      else if 0 < order then .ok (index, false)
      else lowerBoundFrom node search rounds (index + 1)

def findLowerBound (node : BPlusTreeNode) (key : IndexKey) : Except TreeFailure (Nat × Bool) := do
  let search ← key.bytes
  lowerBoundFrom node search node.keyCount 0

def skipEqual (node : BPlusTreeNode) (keyBytes : List UInt8) : Nat → Nat → Except TreeFailure Nat
  | 0, index => .ok index
  | rounds + 1, index => do
      let (key, _) ← entryAt node index
      if key = keyBytes then skipEqual node keyBytes rounds (index + 1)
      else .ok index

/-- Both parts of a record id are cut to 32 bits. -/
def cut (recordId : RecordID) : RecordID :=
  ⟨recordId.pageId % 2 ^ 32, recordId.slotId % 2 ^ 32⟩

def insert (pageSize : Nat) (node : BPlusTreeNode) (key : IndexKey)
    (recordId : RecordID) : Except TreeFailure (Bool × BPlusTreeNode) := do
  let keyBytes ← key.bytes
  let entry := NodeEntry.record keyBytes (cut recordId)
  let node := node.reserve pageSize entry.size
  if node.freeSpace < entry.size + sizeofSlot then .ok (false, node)
  else
    let (index, exact) ← findLowerBound node key
    let index ←
      if exact then skipEqual node keyBytes (node.keyCount - index) index
      else .ok index
    .ok (true, node.placeEntry index entry)

def findEntry (node : BPlusTreeNode) (keyBytes : List UInt8)
    (recordId : RecordID) : Nat → Nat → Except TreeFailure (Option Nat)
  | 0, _ => .ok none
  | rounds + 1, index => do
      let (key, found) ← entryAt node index
      if key ≠ keyBytes then .ok none
      else if found = recordId then .ok (some index)
      else findEntry node keyBytes recordId rounds (index + 1)

def remove (node : BPlusTreeNode) (key : IndexKey) (recordId : RecordID) :
    Except TreeFailure (Bool × BPlusTreeNode) := do
  let (index, exact) ← findLowerBound node key
  if !exact then .ok (false, node)
  else
    let keyBytes ← key.bytes
    match ← findEntry node keyBytes recordId (node.keyCount - index) index with
    | none => .ok (false, node)
    | some index => .ok (true, (node.eraseSlot index).updateFreeSpace)

/-- The loop of `split`; the result of the insertion is ignored. -/
def moveEntries (pageSize : Nat) (types : List TypeID) (node : BPlusTreeNode) : Nat → Nat →
    BPlusTreeNode → Except TreeFailure BPlusTreeNode
  | 0, _, new => .ok new
  | rounds + 1, index, new => do
      let (keyBytes, recordId) ← entryAt node index
      let key ← IndexKey.ofBytes keyBytes types
      let (_, new) ← insert pageSize new key recordId
      moveEntries pageSize types node rounds (index + 1) new

/-- The separator, this leaf and the new one. -/
def split (pageSize : Nat) (types : List TypeID) (node new : BPlusTreeNode) :
    Except TreeFailure (IndexKey × BPlusTreeNode × BPlusTreeNode) := do
  let middle := node.keyCount / 2
  let new ← moveEntries pageSize types node (node.keyCount - middle) middle new
  let (separatorBytes, _) ← entryAt node middle
  let separator ← IndexKey.ofBytes separatorBytes types
  .ok (separator, node.keepLeft pageSize middle, new)

end BPlusTreeLeaf

namespace BPlusTreeInternal

open BPlusTreeNode

def entryAt (node : BPlusTreeNode) (index : Nat) : Except TreeFailure (List UInt8 × Nat) :=
  match node.slots index with
  | some (_, .child keyBytes pageId) => .ok (keyBytes, pageId)
  | _ => .error .staleSlot

/-- The first entry has no key. -/
def keyBytesAt (node : BPlusTreeNode) (index : Nat) : Except TreeFailure (List UInt8) :=
  if index = 0 then .ok [] else (entryAt node index).map Prod.fst

def childAt (node : BPlusTreeNode) (index : Nat) : Except TreeFailure Nat :=
  (entryAt node index).map Prod.snd

def childFrom (node : BPlusTreeNode) (search : List UInt8) : Nat → Nat → Except TreeFailure Nat
  | 0, _ => childAt node (sub16 node.keyCount 1)
  | rounds + 1, index => do
      let key ← keyBytesAt node index
      if 0 < compareBytes key search then childAt node (index - 1)
      else childFrom node search rounds (index + 1)

def findChild (node : BPlusTreeNode) (key : IndexKey) :
    Except TreeFailure Nat := do
  let search ← key.bytes
  childFrom node search (node.keyCount - 1) 1

/-- The loop of `insert`: the first separator that is not less. -/
def positionFrom (node : BPlusTreeNode) (keyBytes : List UInt8) : Nat → Nat → Except TreeFailure Nat
  | 0, index => .ok index
  | rounds + 1, index => do
      let key ← keyBytesAt node index
      if 0 ≤ compareBytes key keyBytes then .ok index
      else positionFrom node keyBytes rounds (index + 1)

/-- The page id of the child is cut to 32 bits. -/
def insert (pageSize : Nat) (node : BPlusTreeNode) (key : IndexKey)
    (rightChild : Nat) : Except TreeFailure (Bool × BPlusTreeNode) := do
  let keyBytes ← key.bytes
  let entry := NodeEntry.child keyBytes (rightChild % 2 ^ 32)
  let node := node.reserve pageSize entry.size
  if node.freeSpace < entry.size + sizeofSlot then .ok (false, node)
  else
    let index ← positionFrom node keyBytes (node.keyCount - 1) 1
    .ok (true, node.placeEntry index entry)

/-- The loop of `split` over the entries behind the middle one. -/
def moveEntries (pageSize : Nat) (types : List TypeID) (node : BPlusTreeNode) : Nat → Nat →
    BPlusTreeNode → Except TreeFailure BPlusTreeNode
  | 0, _, new => .ok new
  | rounds + 1, index, new => do
      let keyBytes ← keyBytesAt node index
      let child ← childAt node index
      let key ← IndexKey.ofBytes keyBytes types
      let (_, new) ← insert pageSize new key child
      moveEntries pageSize types node rounds (index + 1) new

/-- The new node starts with an entry without a key, which leaves its free space
as it was. -/
def split (pageSize : Nat) (types : List TypeID) (node new : BPlusTreeNode) :
    Except TreeFailure (IndexKey × BPlusTreeNode × BPlusTreeNode) := do
  let middle := node.keyCount / 2
  let separatorBytes ← keyBytesAt node middle
  let separator ← IndexKey.ofBytes separatorBytes types
  let child ← childAt node middle
  let new := (new.makeSlotRoom 0).writeEntry 0 (.child [] child)
  let new ← moveEntries pageSize types node (node.keyCount - (middle + 1)) (middle + 1) new
  .ok (separator, node.keepLeft pageSize middle, new)

end BPlusTreeInternal

end KlyroDB
