import KlyroDB.BPlusTree
import KlyroDB.NodeSplits

/-!
# Iterating over the chain of leaves

The entries in front of an iterator are those from its index on in its leaf,
and all entries of the leaves that follow.
-/

namespace KlyroDB

open BPlusTree (tryFetch fetchPage readPage beginFrom findLeafFrom)
open BPlusTreeIterator (loadPage collect make)
open BPlusTreeInternal (childAt childFrom findChild)
open BPlusTreeLeaf (lowerBoundFrom findLowerBound)

/-- The call returns the value and changes nothing but the number of fetches. -/
def Reads {α : Type} (tree : BPlusTree) (call : TreeCall α) (value : α) : Prop :=
  ∀ fetches, ∃ later,
    call { tree with fetches := fetches } = (.ok value, { tree with fetches := later })

section Reading

variable {α β : Type} {tree : BPlusTree}

theorem Reads.pure (value : α) : Reads tree (Pure.pure value) value :=
  fun fetches => ⟨fetches, rfl⟩

theorem Reads.bind {call : TreeCall α} {next : α → TreeCall β} {value : α} {result : β}
    (first : Reads tree call value) (second : Reads tree (next value) result) :
    Reads tree (call >>= next) result := by
  intro fetches
  obtain ⟨middle, called⟩ := first fetches
  obtain ⟨later, done⟩ := second middle
  use later
  change TreeCall.bind call next _ = _
  rw [TreeCall.bind, called]
  exact done

theorem Reads.ofExcept {result : Except TreeFailure α} {value : α} (returns : result = .ok value) :
    Reads tree (TreeCall.ofExcept result) value :=
  fun fetches => ⟨fetches, by rw [TreeCall.ofExcept, returns]⟩

theorem Reads.ofEmpty {next : BPlusTree → TreeCall β} {result : β} (empty : tree.isEmpty = true) :
    Reads tree (TreeCall.tree >>= fun self => if self.isEmpty then Pure.pure result else next self)
      result :=
  fun fetches => ⟨fetches, congrFun (if_pos empty) _⟩

theorem Reads.ofRooted {otherwise : TreeCall β} {next : BPlusTree → TreeCall β} {result : β}
    (rooted : tree.isEmpty = false)
    (each : ∀ fetches, Reads tree (next { tree with fetches := fetches }) result) :
    Reads tree (TreeCall.tree >>= fun self => if self.isEmpty then otherwise else next self)
      result := by
  intro fetches
  obtain ⟨later, done⟩ := each fetches fetches
  have inhabited : ¬ BPlusTree.isEmpty { tree with fetches := fetches } = true :=
    fun empty => Bool.false_ne_true (rooted.symm.trans empty)
  exact ⟨later, (congrFun (if_neg inhabited) _).trans done⟩

variable {context : TreeContext} (healthy : ∀ number, context.fetchError number = none)
  {id : Nat} {node : BPlusTreeNode} (found : tree.pages id = some node)

include found

theorem Reads.readPage : Reads tree (readPage id) node :=
  fun fetches => ⟨fetches, by simp only [BPlusTree.readPage, found]⟩

include healthy

theorem Reads.tryFetch : Reads tree (tryFetch context id) none :=
  fun fetches => ⟨fetches + 1, by simp [BPlusTree.tryFetch, healthy, found]⟩

theorem Reads.fetchPage : Reads tree (fetchPage context id) () :=
  (Reads.tryFetch healthy found).bind (Reads.pure ())

end Reading

abbrev IndexEntry := IndexKey × RecordID

structure LeafHolds (types : List TypeID) (node : BPlusTreeNode)
    (entries : List IndexEntry) : Prop where
  count_eq : node.keyCount = entries.length
  entry_eq : ∀ index entry, entries[index]? = some entry → ∃ keyBytes,
    BPlusTreeLeaf.entryAt node index = .ok (keyBytes, entry.2) ∧
      IndexKey.ofBytes keyBytes types = .ok entry.1

abbrev LeafPage := Nat × List IndexEntry

/-- A finite chain of leaves from a page on. -/
inductive LeafChain (types : List TypeID) (pages : Nat → Option BPlusTreeNode) :
    Nat → List LeafPage → Prop
  | nil {id : Nat} (last : PageID.isValid id = false) : LeafChain types pages id []
  | cons {id : Nat} {node : BPlusTreeNode} {entries : List IndexEntry}
      {leaves : List LeafPage} (valid : PageID.isValid id = true) (found : pages id = some node)
      (holds : LeafHolds types node entries)
      (rest : LeafChain types pages node.nextPageId leaves) :
      LeafChain types pages id ((id, entries) :: leaves)

theorem LeafChain.suffix {types : List TypeID} {pages : Nat → Option BPlusTreeNode}
    {before after : List LeafPage} {leaf : LeafPage} {id : Nat}
    (chain : LeafChain types pages id (before ++ leaf :: after)) :
    LeafChain types pages leaf.1 (leaf :: after) := by
  induction before generalizing id with
  | nil => cases chain with | cons valid found holds rest => exact .cons valid found holds rest
  | cons skipped before induction => cases chain with | cons valid found holds rest =>
    exact induction rest

/-- The pages below a node with the leaves in their order. -/
def Subtree (pages : Nat → Option BPlusTreeNode) : Nat → Nat → List Nat → Prop
  | 0, id, leaves => ∃ node, pages id = some node ∧ node.isLeaf = true ∧ leaves = [id]
  | depth + 1, id, leaves => ∃ node, pages id = some node ∧ node.isLeaf = false ∧
      ∃ children : List (Nat × List Nat), children.length = node.keyCount ∧
        children ≠ [] ∧ children.length < 2 ^ 16 ∧ leaves = children.flatMap Prod.snd ∧
        ∀ index child, children[index]? = some child →
          (∃ keyBytes, BPlusTreeInternal.entryAt node index = .ok (keyBytes, child.1)) ∧
            Subtree pages depth child.1 child.2

theorem Subtree.ne_nil {pages : Nat → Option BPlusTreeNode} {depth id : Nat} {leaves : List Nat}
    (subtree : Subtree pages depth id leaves) : leaves ≠ [] := by
  induction depth generalizing id leaves with
  | zero =>
    obtain ⟨node, found, leaf, rfl⟩ := subtree
    exact List.cons_ne_nil id []
  | succ depth induction =>
    obtain ⟨node, found, inner, children, -, nonempty, -, rfl, each⟩ := subtree
    obtain ⟨child, others, rfl⟩ := List.exists_cons_of_ne_nil nonempty
    exact List.append_ne_nil_of_left_ne_nil (induction (each 0 child rfl).2) _

section Searching

variable {node : BPlusTreeNode} {key : IndexKey} {search : List UInt8}

/-- The search in an internal node ends at one of its children. -/
theorem childFrom_eq {rounds index : Nat} (start : 1 ≤ index)
    (rounds_eq : node.keyCount = index + rounds) (few : node.keyCount < 2 ^ 16)
    (each : ∀ index < node.keyCount, ∃ entry, BPlusTreeInternal.entryAt node index = .ok entry) :
    ∃ slot < node.keyCount, childFrom node search rounds index = childAt node slot := by
  induction rounds generalizing index with
  | zero =>
    have last : BPlusTreeNode.sub16 node.keyCount 1 = node.keyCount - 1 := by
      rw [BPlusTreeNode.sub16]
      omega
    refine ⟨node.keyCount - 1, by omega, ?_⟩
    rw [childFrom, last]
  | succ rounds induction =>
    obtain ⟨entry, entryAt⟩ := each index (by omega)
    have keyBytesAt : BPlusTreeInternal.keyBytesAt node index = .ok entry.1 := by
      rw [BPlusTreeInternal.keyBytesAt, if_neg (by omega), entryAt]
      rfl
    have step : childFrom node search (rounds + 1) index =
        if 0 < compareBytes entry.1 search then childAt node (index - 1)
        else childFrom node search rounds (index + 1) := by
      rw [childFrom, keyBytesAt]
      rfl
    rw [step]
    split
    · exact ⟨index - 1, by omega, rfl⟩
    · exact induction (by omega) (by omega)

theorem lowerBoundFrom_le {rounds index : Nat} (rounds_eq : node.keyCount = index + rounds)
    (each : ∀ index < node.keyCount, ∃ entry, BPlusTreeLeaf.entryAt node index = .ok entry) :
    ∃ slot exact, slot ≤ node.keyCount ∧
      lowerBoundFrom node search rounds index = .ok (slot, exact) := by
  induction rounds generalizing index with
  | zero => exact ⟨index, false, by omega, rfl⟩
  | succ rounds induction =>
    obtain ⟨entry, entryAt⟩ := each index (by omega)
    have step : lowerBoundFrom node search (rounds + 1) index =
        if compareBytes entry.1 search = 0 then .ok (index, true)
        else if 0 < compareBytes entry.1 search then .ok (index, false)
        else lowerBoundFrom node search rounds (index + 1) := by
      rw [lowerBoundFrom, entryAt]
      rfl
    rw [step]
    split
    · exact ⟨index, true, by omega, rfl⟩
    · split
      · exact ⟨index, false, by omega, rfl⟩
      · exact induction (by omega)

end Searching

/-- A tree over a chain of leaves; a loop over page links takes enough rounds
to get through it. -/
inductive ChainedTree (context : TreeContext) (tree : BPlusTree) : List LeafPage → Prop
  | empty (empty : tree.isEmpty = true) : ChainedTree context tree []
  | rooted {depth first : Nat} {leaves : List LeafPage} (rooted : tree.isEmpty = false)
      (subtree : Subtree tree.pages depth tree.rootPageId (leaves.map Prod.fst))
      (chain : LeafChain context.keyTypes tree.pages first leaves)
      (shallow : depth < context.rounds) (short : leaves.length < context.rounds) :
      ChainedTree context tree leaves

section Iterating

variable {context : TreeContext} {tree : BPlusTree}

/-- The entries in front of a position. -/
inductive Ahead (context : TreeContext) (tree : BPlusTree) :
    Option (Nat × Nat) → List IndexEntry → Prop
  | past : Ahead context tree none []
  | within {page index : Nat} {node : BPlusTreeNode} {entries : List IndexEntry}
      {leaves : List LeafPage} (found : tree.pages page = some node)
      (holds : LeafHolds context.keyTypes node entries) (bound : index < entries.length)
      (rest : LeafChain context.keyTypes tree.pages node.nextPageId leaves)
      (short : leaves.length < context.rounds) :
      Ahead context tree (some (page, index)) (entries.drop index ++ leaves.flatMap Prod.snd)

/-- Reading and moving on until the iterator is no longer valid yields the
entries, in any number of rounds that is large enough. -/
def Collects (context : TreeContext) (tree : BPlusTree) (iterator : BPlusTreeIterator)
    (entries : List IndexEntry) : Prop :=
  ∀ rounds, entries.length < rounds → Reads tree (collect context rounds iterator) entries

/-- Where `lower_bound` starts in the chain. -/
inductive StartsAt (context : TreeContext) (tree : BPlusTree) (key : IndexKey) :
    List LeafPage → Nat → Prop
  | empty (empty : tree.isEmpty = true) : StartsAt context tree key [] 0
  | leaf {leaf : LeafPage} {after : List LeafPage} {node : BPlusTreeNode} {index : Nat}
      {exact : Bool} (findLeaf : Reads tree (BPlusTree.findLeaf context key) leaf.1)
      (found : tree.pages leaf.1 = some node)
      (position : findLowerBound node key = .ok (index, exact)) :
      StartsAt context tree key (leaf :: after) index

variable (healthy : ∀ number, context.fetchError number = none)

include healthy

/-- Empty leaves are skipped. -/
theorem loadPage_ahead {id index rounds : Nat} {leaves : List LeafPage}
    (chain : LeafChain context.keyTypes tree.pages id leaves) (enough : leaves.length < rounds)
    (few : leaves.length ≤ context.rounds) (inside : index ≤ (leaves.headD (0, [])).2.length) :
    ∃ position, Reads tree (loadPage context rounds id index) position ∧
      Ahead context tree position ((leaves.flatMap Prod.snd).drop index) := by
  induction chain generalizing index rounds with
  | @nil id last =>
    obtain ⟨rounds, rfl⟩ := Nat.exists_eq_add_of_lt enough
    refine ⟨none, ?_, by simpa using Ahead.past⟩
    rw [loadPage, last]
    exact Reads.pure none
  | @cons id node entries leaves valid found holds rest induction =>
    obtain ⟨rounds, rfl⟩ : ∃ fewer, rounds = fewer + 1 := ⟨rounds - 1, by omega⟩
    rw [List.length_cons] at enough few
    rw [List.headD_cons] at inside
    rw [List.flatMap_cons, List.drop_append_of_le_length inside]
    have step {position : Option (Nat × Nat)} (reads : Reads tree (if node.keyCount ≤ index then
        loadPage context rounds node.nextPageId 0
        else return some (id, index)) position) :
        Reads tree (loadPage context (rounds + 1) id index) position := by
      rw [loadPage, valid]
      exact (Reads.tryFetch healthy found).bind ((Reads.readPage found).bind reads)
    by_cases atEnd : node.keyCount ≤ index
    · obtain ⟨position, reads, ahead⟩ := @induction 0 rounds (by omega) (by omega) (Nat.zero_le _)
      refine ⟨position, step (by rwa [if_pos atEnd]), ?_⟩
      rwa [List.drop_eq_nil_of_le (by rw [← holds.count_eq]; exact atEnd)]
    · refine ⟨some (id, index), step (by rw [if_neg atEnd]; exact Reads.pure _), ?_⟩
      rw [holds.count_eq, not_le] at atEnd
      exact .within found holds atEnd rest (by omega)

theorem next_ahead {iterator : BPlusTreeIterator} {entry : IndexEntry}
    {others : List IndexEntry} (fresh : iterator.keyCached = false)
    (ahead : Ahead context tree iterator.position (entry :: others)) :
    ∃ read moved, Reads tree iterator.isValid true ∧
      Reads tree (iterator.key context) (entry.1, read) ∧
      Reads tree read.recordId entry.2 ∧ Reads tree (read.next context) moved ∧
      moved.keyCached = false ∧ Ahead context tree moved.position others := by
  obtain ⟨position, keyCached, keyCache⟩ := iterator
  cases fresh
  generalize contents : entry :: others = remaining at ahead
  cases ahead with
  | past => cases contents
  | @within page index node entries leaves found holds bound rest short =>
    rw [List.drop_eq_getElem_cons bound] at contents
    obtain ⟨entry_eq, rfl⟩ := List.cons.inj contents
    obtain ⟨keyBytes, entryAt, ofBytes⟩ :=
      holds.entry_eq index entry (by rw [entry_eq, List.getElem?_eq_getElem bound])
    have current (keyCached : Bool) (keyCache : IndexKey) : Reads tree
        (BPlusTreeIterator.current ⟨some (page, index), keyCached, keyCache⟩)
        (some (page, node, index)) := by
      refine (Reads.readPage found).bind ?_
      rw [if_pos (by rwa [holds.count_eq])]
      exact Reads.pure _
    have moves : ∃ moved, Reads tree
        (BPlusTreeIterator.next context ⟨some (page, index), true, entry.1⟩) moved ∧
        moved.keyCached = false ∧ Ahead context tree moved.position
          (entries.drop (index + 1) ++ leaves.flatMap Prod.snd) := by
      by_cases atEnd : node.keyCount ≤ index + 1
      · obtain ⟨position, reads, ahead⟩ :=
          loadPage_ahead healthy rest short short.le (Nat.zero_le _)
        refine ⟨⟨position, false, entry.1⟩, (current true _).bind ?_, rfl, ?_⟩
        · dsimp only
          rw [if_pos atEnd]
          exact reads.bind (Reads.pure _)
        · rwa [List.drop_eq_nil_of_le (by rwa [← holds.count_eq])]
      · refine ⟨⟨some (page, index + 1), false, entry.1⟩, (current true _).bind ?_, rfl, ?_⟩
        · dsimp only
          rw [if_neg atEnd]
          exact Reads.pure _
        · rw [holds.count_eq, not_le] at atEnd
          exact .within found holds atEnd rest short
    obtain ⟨moved, next, stale⟩ := moves
    exact ⟨⟨some (page, index), true, entry.1⟩, moved, (current false _).bind (Reads.pure _),
      (current false _).bind
        ((Reads.ofExcept entryAt).bind ((Reads.ofExcept ofBytes).bind (Reads.pure _))),
      (current true _).bind ((Reads.ofExcept entryAt).bind (Reads.pure _)), next, stale⟩

theorem collect_ahead {iterator : BPlusTreeIterator} {remaining : List IndexEntry}
    {rounds : Nat} (fresh : iterator.keyCached = false)
    (ahead : Ahead context tree iterator.position remaining) (enough : remaining.length < rounds) :
    Reads tree (collect context rounds iterator) remaining := by
  induction remaining generalizing iterator rounds with
  | nil =>
    obtain ⟨rounds, rfl⟩ := Nat.exists_eq_add_of_lt enough
    have done : iterator.position = none := by
      generalize contents : ([] : List IndexEntry) = remaining at ahead
      generalize iterator.position = position at ahead
      cases ahead with
      | past => rfl
      | within found holds bound rest short =>
        rw [List.drop_eq_getElem_cons bound] at contents
        cases contents
    have invalid : Reads tree iterator.isValid false := by
      rw [BPlusTreeIterator.isValid, BPlusTreeIterator.current, done]
      exact (Reads.pure none).bind (Reads.pure _)
    exact invalid.bind (Reads.pure [])
  | cons entry others induction =>
    rw [List.length_cons] at enough
    obtain ⟨rounds, rfl⟩ := Nat.exists_eq_add_of_lt enough
    obtain ⟨read, moved, valid, key, recordId, next, fresh, ahead⟩ := next_ahead healthy fresh ahead
    exact valid.bind (key.bind (recordId.bind (next.bind
      ((induction fresh ahead (by omega)).bind (Reads.pure _)))))

theorem make_collects {id index : Nat} {leaves : List LeafPage}
    (chain : LeafChain context.keyTypes tree.pages id leaves)
    (short : leaves.length < context.rounds)
    (inside : index ≤ (leaves.headD (0, [])).2.length) :
    ∃ iterator, Reads tree (make context id index) iterator ∧
      Collects context tree iterator ((leaves.flatMap Prod.snd).drop index) := by
  obtain ⟨position, reads, ahead⟩ := loadPage_ahead healthy chain short short.le inside
  exact ⟨{ position := position }, reads.bind (Reads.pure _),
    fun rounds enough => collect_ahead healthy rfl ahead enough⟩

theorem beginFrom_reads {depth rounds id first : Nat} {leaves : List Nat}
    {iterator : BPlusTreeIterator} (subtree : Subtree tree.pages depth id leaves)
    (shallow : depth < rounds) (first_eq : leaves.head? = some first)
    (reads : Reads tree (make context first 0) iterator) :
    Reads tree (beginFrom context rounds id) iterator := by
  induction depth generalizing rounds id leaves with
  | zero =>
    obtain ⟨rounds, rfl⟩ := Nat.exists_eq_add_of_lt shallow
    obtain ⟨node, found, leaf, rfl⟩ := subtree
    cases first_eq
    refine (Reads.fetchPage healthy found).bind ((Reads.readPage found).bind ?_)
    rwa [if_pos leaf]
  | succ depth induction =>
    obtain ⟨rounds, rfl⟩ := Nat.exists_eq_add_of_lt shallow
    obtain ⟨node, found, inner, children, -, nonempty, -, rfl, each⟩ := subtree
    obtain ⟨child, others, rfl⟩ := List.exists_cons_of_ne_nil nonempty
    obtain ⟨⟨keyBytes, entryAt⟩, below⟩ := each 0 child rfl
    have first : childAt node 0 = .ok child.1 := by
      rw [childAt, entryAt]
      rfl
    rw [List.flatMap_cons, List.head?_append_of_ne_nil _ below.ne_nil] at first_eq
    refine (Reads.fetchPage healthy found).bind ((Reads.readPage found).bind ?_)
    rw [if_neg (by simp [inner])]
    exact (Reads.ofExcept first).bind (induction below (by omega) first_eq)

theorem findLeafFrom_reads {depth rounds id : Nat} {leaves : List Nat} {key : IndexKey}
    {search : List UInt8} (serialized : key.bytes = .ok search)
    (subtree : Subtree tree.pages depth id leaves) (shallow : depth < rounds) :
    ∃ leaf ∈ leaves, Reads tree (findLeafFrom context key rounds id) leaf := by
  induction depth generalizing rounds id leaves with
  | zero =>
    obtain ⟨rounds, rfl⟩ := Nat.exists_eq_add_of_lt shallow
    obtain ⟨node, found, leaf, rfl⟩ := subtree
    refine ⟨id, List.mem_singleton_self id, ?_⟩
    refine (Reads.fetchPage healthy found).bind ((Reads.readPage found).bind ?_)
    rw [if_pos leaf]
    exact Reads.pure id
  | succ depth induction =>
    obtain ⟨rounds, rfl⟩ : ∃ fewer, rounds = fewer + 1 := ⟨rounds - 1, by omega⟩
    obtain ⟨node, found, inner, children, count, nonempty, few, rfl, each⟩ := subtree
    have entries (index : Nat) (bound : index < node.keyCount) :
        ∃ child ∈ children, Subtree tree.pages depth child.1 child.2 ∧
          ∃ keyBytes, BPlusTreeInternal.entryAt node index = .ok (keyBytes, child.1) := by
      rw [← count] at bound
      obtain ⟨entryAt, below⟩ := each index children[index] (List.getElem?_eq_getElem bound)
      exact ⟨children[index], List.getElem_mem bound, below, entryAt⟩
    have positive := List.length_pos_of_ne_nil nonempty
    obtain ⟨slot, bound, reached⟩ := @childFrom_eq node search (node.keyCount - 1) 1 le_rfl
      (by omega) (by omega) fun index bound =>
        let ⟨child, _, _, keyBytes, entryAt⟩ := entries index bound
        ⟨(keyBytes, child.1), entryAt⟩
    obtain ⟨child, mem, below, keyBytes, entryAt⟩ := entries slot bound
    have chosen : findChild node key = .ok child.1 := by
      rw [findChild, serialized]
      refine reached.trans ?_
      rw [childAt, entryAt]
      rfl
    obtain ⟨leaf, leaf_mem, reads⟩ := @induction rounds _ _ below (by omega)
    refine ⟨leaf, List.mem_flatMap_of_mem mem leaf_mem, ?_⟩
    refine (Reads.fetchPage healthy found).bind ((Reads.readPage found).bind ?_)
    rw [if_neg (by simp [inner])]
    exact (Reads.ofExcept chosen).bind reads

section Rooted

variable {depth first : Nat} {leaves : List LeafPage} (rooted : tree.isEmpty = false)
  (subtree : Subtree tree.pages depth tree.rootPageId (leaves.map Prod.fst))
  (chain : LeafChain context.keyTypes tree.pages first leaves)
  (shallow : depth < context.rounds) (short : leaves.length < context.rounds)

include rooted subtree chain shallow short

theorem lowerBound_reads {key : IndexKey} {search : List UInt8}
    (serialized : key.bytes = .ok search) :
    ∃ iterator before after index, Reads tree (BPlusTree.lowerBound context key) iterator ∧
      leaves = before ++ after ∧ StartsAt context tree key after index ∧
      Collects context tree iterator ((after.flatMap Prod.snd).drop index) := by
  obtain ⟨page, mem, descent⟩ := findLeafFrom_reads healthy serialized subtree shallow
  obtain ⟨⟨page, entries⟩, leaf_mem, rfl⟩ := List.mem_map.mp mem
  obtain ⟨before, after, rfl⟩ := List.append_of_mem leaf_mem
  have suffix := chain.suffix
  cases suffix with
  | @cons _ node _ _ valid found holds rest =>
    have each (index : Nat) (bound : index < node.keyCount) :
        ∃ entry, BPlusTreeLeaf.entryAt node index = .ok entry := by
      rw [holds.count_eq] at bound
      obtain ⟨keyBytes, entryAt, -⟩ := holds.entry_eq index _ (List.getElem?_eq_getElem bound)
      exact ⟨_, entryAt⟩
    obtain ⟨index, exact, bound, reached⟩ :=
      @lowerBoundFrom_le node search _ _ (Nat.zero_add _).symm each
    have position : findLowerBound node key = .ok (index, exact) := by
      rw [findLowerBound, serialized]
      exact reached
    have findLeaf : Reads tree (BPlusTree.findLeaf context key) page :=
      Reads.ofRooted rooted fun _ => descent
    rw [holds.count_eq] at bound
    rw [List.length_append] at short
    obtain ⟨iterator, made, collects⟩ := make_collects healthy chain.suffix (by omega) bound
    refine ⟨iterator, before, _, index, Reads.ofRooted rooted fun _ => ?_, rfl,
      .leaf findLeaf found position, collects⟩
    exact findLeaf.bind ((Reads.fetchPage healthy found).bind ((Reads.readPage found).bind
      ((Reads.ofExcept position).bind made)))

theorem begin_reads :
    ∃ iterator, Reads tree (BPlusTree.begin context) iterator ∧
      Collects context tree iterator (leaves.flatMap Prod.snd) := by
  obtain ⟨leaf, others, rfl⟩ := List.exists_cons_of_ne_nil
    (fun none : leaves = [] => subtree.ne_nil (by rw [none, List.map_nil]))
  obtain ⟨iterator, made, collects⟩ :=
    make_collects healthy (@LeafChain.suffix _ _ [] _ _ _ chain) short (Nat.zero_le _)
  exact ⟨iterator, Reads.ofRooted rooted fun _ => beginFrom_reads healthy subtree shallow rfl made,
    collects⟩

end Rooted

/-- Iterating from `begin` yields the entries of all leaves in the order of the
chain, and iterating from `lower_bound` those from its first position on.
Without fetch errors only the serialization of the key can fail. -/
theorem iterators_yield_chain {leaves : List LeafPage} (formed : ChainedTree context tree leaves) :
    (∃ iterator, Reads tree (BPlusTree.begin context) iterator ∧
      Collects context tree iterator (leaves.flatMap Prod.snd)) ∧
    ∀ key : IndexKey, (tree.isEmpty = false → ∃ search, key.bytes = .ok search) →
      ∃ iterator before after index, Reads tree (BPlusTree.lowerBound context key) iterator ∧
        leaves = before ++ after ∧ StartsAt context tree key after index ∧
        Collects context tree iterator ((after.flatMap Prod.snd).drop index) := by
  cases formed with
  | empty empty =>
    have nothing : Collects context tree {} [] :=
      fun rounds enough => collect_ahead healthy rfl .past enough
    exact ⟨⟨{}, Reads.ofEmpty empty, nothing⟩,
      fun key _ => ⟨{}, [], [], 0, Reads.ofEmpty empty, rfl, .empty empty, nothing⟩⟩
  | rooted rooted subtree chain shallow short =>
    refine ⟨begin_reads healthy rooted subtree chain shallow short, fun key serialized => ?_⟩
    obtain ⟨search, serialized⟩ := serialized rooted
    exact lowerBound_reads healthy rooted subtree chain shallow short serialized

end Iterating

/-- A root over an emptied leaf and a full one. -/
def emptiedTree : BPlusTree where
  rootPageId := 0
  pages
    | 0 => some { BPlusTreeNode.empty false 1 126 with
        keyCount := 2
        slots := fun slot =>
          if slot = 0 then some (126, .child [] 1)
          else some (113, .child [1, 0, 0, 0, 1, 0, 0, 0, 0] 2) }
    | 1 => some { BPlusTreeNode.empty true 0 126 with nextPageId := 2 }
    | 2 => some BPlusTreeNode.fullLeaf
    | _ => none
  fetches := 0

def booleanContext : TreeContext where
  keyTypes := [.boolean]
  pageSize := 126
  pageSize_ge := by decide
  pageSize_le := by decide
  fetchError _ := none
  rounds := 3

theorem chainedTree_emptiedTree : ChainedTree booleanContext emptiedTree
    [(1, []), (2, [(⟨[.boolean false]⟩, ⟨1, 0⟩), (⟨[.boolean true]⟩, ⟨1, 1⟩)])] := by
  refine @ChainedTree.rooted _ _ 1 1 _ rfl ⟨_, rfl, rfl, [(1, [1]), (2, [2])], rfl, by decide,
    by decide, rfl, ?_⟩ (.cons rfl rfl ⟨rfl, ?_⟩ (.cons rfl rfl ⟨rfl, ?_⟩ (.nil rfl)))
    (by decide) (by decide)
  · rintro (_ | _ | index) child ⟨⟩
    · exact ⟨⟨_, rfl⟩, _, rfl, rfl, rfl⟩
    · exact ⟨⟨_, rfl⟩, _, rfl, rfl, rfl⟩
  · rintro index entry ⟨⟩
  · rintro (_ | _ | index) entry ⟨⟩
    · exact ⟨_, rfl, rfl⟩
    · exact ⟨_, rfl, rfl⟩

theorem iterators_yield_emptiedTree :
    (∃ iterator, Reads emptiedTree (BPlusTree.begin booleanContext) iterator ∧
      Collects booleanContext emptiedTree iterator
        [(⟨[.boolean false]⟩, ⟨1, 0⟩), (⟨[.boolean true]⟩, ⟨1, 1⟩)]) ∧
    ∃ iterator before after index,
      Reads emptiedTree (BPlusTree.lowerBound booleanContext ⟨[.boolean true]⟩) iterator ∧
      [(1, []), (2, [(⟨[.boolean false]⟩, ⟨1, 0⟩), (⟨[.boolean true]⟩, ⟨1, 1⟩)])] =
        before ++ after ∧
      StartsAt booleanContext emptiedTree ⟨[.boolean true]⟩ after index ∧
      Collects booleanContext emptiedTree iterator ((after.flatMap Prod.snd).drop index) := by
  have yields := iterators_yield_chain (fun _ => rfl) chainedTree_emptiedTree
  exact ⟨yields.1, yields.2 ⟨[.boolean true]⟩ fun _ => ⟨_, rfl⟩⟩

end KlyroDB
