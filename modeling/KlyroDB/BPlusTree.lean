import KlyroDB.TreeNodes

/-!
# The B+ tree

The searches of `index/bplus_tree.cpp` and the iterators of
`index/bplus_tree_iterator.cpp` over the pages that the buffer pool hands out.
Any fetch may fail.
-/

namespace KlyroDB

/-- What the surroundings of a tree decide: which fetches fail, and how many
rounds a loop over page links may take.  The bounds of a node are 16-bit
numbers, which larger pages would exceed. -/
structure TreeContext where
  keyTypes : List TypeID
  pageSize : Nat
  pageSize_ge : 84 ≤ pageSize
  pageSize_le : pageSize ≤ 65531
  fetchError : Nat → Option Status
  rounds : Nat

/-- A tree with the pages of its database and the number of fetches so far. -/
structure BPlusTree where
  rootPageId : Nat
  pages : Nat → Option BPlusTreeNode
  fetches : Nat

def TreeCall (α : Type) : Type :=
  BPlusTree → Except TreeFailure α × BPlusTree

namespace TreeCall

def pure {α : Type} (value : α) : TreeCall α := fun tree => (.ok value, tree)

def fail {α : Type} (failure : TreeFailure) : TreeCall α :=
  fun tree => (.error failure, tree)

def bind {α β : Type} (call : TreeCall α) (next : α → TreeCall β) :
    TreeCall β := fun tree =>
  match call tree with
  | (.error failure, tree) => (.error failure, tree)
  | (.ok value, tree) => next value tree

instance : Monad TreeCall where
  pure := TreeCall.pure
  bind := TreeCall.bind

def tree : TreeCall BPlusTree := fun tree => (.ok tree, tree)

def ofExcept {α : Type} (result : Except TreeFailure α) : TreeCall α :=
  fun tree => (result, tree)

end TreeCall

namespace BPlusTree

open TreeCall (tree ofExcept fail)

def isEmpty (tree : BPlusTree) : Bool := !PageID.isValid tree.rootPageId

def readPage (id : Nat) : TreeCall BPlusTreeNode := fun tree =>
  match tree.pages id with
  | some node => (.ok node, tree)
  | none => (.error .staleSlot, tree)

section Calls

variable (context : TreeContext)

/-- `fetch_page`; pages that do not exist cannot be read. -/
def tryFetch (id : Nat) : TreeCall (Option Status) := fun tree =>
  let result :=
    match context.fetchError tree.fetches with
    | some status => some status
    | none => if (tree.pages id).isSome then none else some .ioError
  (.ok result, { tree with fetches := tree.fetches + 1 })

/-- A fetch whose failure ends the call. -/
def fetchPage (id : Nat) : TreeCall Unit := do
  match ← tryFetch context id with
  | some status => fail (.status status)
  | none => return ()

def findLeafFrom (key : IndexKey) : Nat → Nat → TreeCall Nat
  | 0, _ => fail .outOfRounds
  | rounds + 1, current => do
      fetchPage context current
      let node ← readPage current
      if node.isLeaf then return current
      else
        let child ← ofExcept (BPlusTreeInternal.findChild node key)
        findLeafFrom key rounds child

def findLeaf (key : IndexKey) : TreeCall Nat := do
  let self ← tree
  if self.isEmpty then fail (.status .notFound)
  else findLeafFrom context key context.rounds self.rootPageId

end Calls

end BPlusTree

/-- The position of an iterator, none once it has passed the last entry or when
a page could not be fetched, and the key that was read there. -/
structure BPlusTreeIterator where
  position : Option (Nat × Nat) := none
  keyCached : Bool := false
  keyCache : IndexKey := ⟨[]⟩

namespace BPlusTreeIterator

open TreeCall (fail ofExcept)
open BPlusTree (tryFetch readPage)

/-- The recursion of `load_page` along the chain of leaves. -/
def loadPage (context : TreeContext) : Nat → Nat → Nat → TreeCall (Option (Nat × Nat))
  | 0, _, _ => fail .outOfRounds
  | rounds + 1, current, index => do
      if !PageID.isValid current then return none
      else
        match ← tryFetch context current with
        | some _ => return none
        | none =>
            let node ← readPage current
            if node.keyCount ≤ index then
              loadPage context rounds node.nextPageId 0
            else return some (current, index)

def make (context : TreeContext) (leaf index : Nat) :
    TreeCall BPlusTreeIterator := do
  let position ← loadPage context context.rounds leaf index
  return { position := position }

/-- The page, the leaf and the index of an iterator that `is_valid`. -/
def current (iterator : BPlusTreeIterator) : TreeCall (Option (Nat × BPlusTreeNode × Nat)) :=
  match iterator.position with
  | none => return none
  | some (page, index) => do
      let leaf ← readPage page
      return if index < leaf.keyCount then some (page, leaf, index) else none

def isValid (iterator : BPlusTreeIterator) : TreeCall Bool := do
  let current ← iterator.current
  return current.isSome

def next (context : TreeContext) (iterator : BPlusTreeIterator) :
    TreeCall BPlusTreeIterator := do
  match ← iterator.current with
  | none => return iterator
  | some (page, leaf, index) =>
      if leaf.keyCount ≤ index + 1 then
        let position ← loadPage context context.rounds leaf.nextPageId 0
        return { iterator with position := position, keyCached := false }
      else
        return { iterator with
          position := some (page, index + 1), keyCached := false }

def key (context : TreeContext) (iterator : BPlusTreeIterator) :
    TreeCall (IndexKey × BPlusTreeIterator) := do
  if iterator.keyCached then return (iterator.keyCache, iterator)
  else
    match ← iterator.current with
    | none => return (iterator.keyCache, iterator)
    | some (_, leaf, index) =>
        let (keyBytes, _) ← ofExcept (BPlusTreeLeaf.entryAt leaf index)
        let key ← ofExcept (IndexKey.ofBytes keyBytes context.keyTypes)
        return (key, { iterator with keyCached := true, keyCache := key })

def recordId (iterator : BPlusTreeIterator) : TreeCall RecordID := do
  match ← iterator.current with
  | none => return {}
  | some (_, leaf, index) =>
      let (_, recordId) ← ofExcept (BPlusTreeLeaf.entryAt leaf index)
      return recordId

/-- A client that reads entries until the iterator is no longer valid. -/
def collect (context : TreeContext) :
    Nat → BPlusTreeIterator → TreeCall (List (IndexKey × RecordID))
  | 0, _ => fail .outOfRounds
  | rounds + 1, iterator => do
      let valid ← iterator.isValid
      if !valid then return []
      else
        let (key, iterator) ← iterator.key context
        let recordId ← iterator.recordId
        let iterator ← iterator.next context
        let rest ← collect context rounds iterator
        return (key, recordId) :: rest

end BPlusTreeIterator

namespace BPlusTree

open TreeCall (tree ofExcept fail)

def lowerBound (context : TreeContext) (key : IndexKey) :
    TreeCall BPlusTreeIterator := do
  let self ← tree
  if self.isEmpty then return {}
  else
    let leaf ← findLeaf context key
    fetchPage context leaf
    let node ← readPage leaf
    let (index, _) ← ofExcept (BPlusTreeLeaf.findLowerBound node key)
    BPlusTreeIterator.make context leaf index

def beginFrom (context : TreeContext) : Nat → Nat → TreeCall BPlusTreeIterator
  | 0, _ => fail .outOfRounds
  | rounds + 1, current => do
      fetchPage context current
      let node ← readPage current
      if node.isLeaf then BPlusTreeIterator.make context current 0
      else
        let child ← ofExcept (BPlusTreeInternal.childAt node 0)
        beginFrom context rounds child

def begin (context : TreeContext) : TreeCall BPlusTreeIterator := do
  let self ← tree
  if self.isEmpty then return {}
  else beginFrom context context.rounds self.rootPageId

end BPlusTree

end KlyroDB
