import KlyroDB.TreeNodes

/-!
# Splitting a node

Both `split` functions cut the number of keys before they compute from it how
many slots the left node gives up.
-/

namespace KlyroDB

namespace BPlusTreeNode

variable {node left right : BPlusTreeNode}

/-- The accounts of a page: the slots end at the lower bound, the entry with
the lowest offset starts at the upper bound, and the rest is free. -/
structure Tidy (node : BPlusTreeNode) : Prop where
  lower_eq : node.lowerBound = 88 + 4 * node.keyCount
  upper_le : ∀ slot < node.keyCount, node.upperBound ≤ node.slotOffset slot
  upper_met : ∃ slot < node.keyCount, node.slotOffset slot = node.upperBound
  free_eq : node.freeSpace + node.lowerBound = node.upperBound

def entries (node : BPlusTreeNode) : List (Option NodeEntry) :=
  (List.range node.keyCount).map fun slot => (node.slots slot).map Prod.snd

/-- What a split of a leaf is for. -/
def LeafParted (node left right : BPlusTreeNode) : Prop :=
  left.entries ++ right.entries = node.entries ∧ left.Tidy ∧ right.Tidy

/-- What a split of an internal node is for: the separator goes up, and its
child becomes the first one of the right node. -/
def InternalParted (node : BPlusTreeNode) (separator : IndexKey)
    (left right : BPlusTreeNode) : Prop :=
  (∃ keyBytes child rest, separator.bytes = .ok keyBytes ∧ right.entries = some (.child [] child) ::
    rest ∧ left.entries ++ some (.child keyBytes child) :: rest = node.entries) ∧
  left.Tidy ∧ right.Tidy

/-- The loop of `compact` changes the upper bound and the slots only. -/
theorem foldl_moveEntry_eq (order : List Nat) (node : BPlusTreeNode) :
    ∃ upper slots, order.foldl moveEntry node =
      { node with upperBound := upper, slots := slots } := by
  induction order generalizing node with
  | nil => exact ⟨_, _, rfl⟩
  | cons slot order induction =>
    obtain ⟨upper, slots, shape⟩ := induction (node.moveEntry slot)
    refine ⟨upper, slots, ?_⟩
    rw [List.foldl_cons, shape, moveEntry]

theorem keepLeft_bounds (pageSize middle : Nat) (small : node.lowerBound < 2 ^ 16) :
    (node.keepLeft pageSize middle).keyCount = middle ∧
      (node.keepLeft pageSize middle).lowerBound = node.lowerBound := by
  have kept : sub16 node.lowerBound ((middle - middle) * sizeofSlot) = node.lowerBound := by
    rw [Nat.sub_self, Nat.zero_mul, sub16]
    omega
  simp only [keepLeft, compact, kept]
  obtain ⟨upper, slots, shape⟩ := foldl_moveEntry_eq _ _
  rw [shape]
  simp only [updateFreeSpace, and_self]

theorem not_tidy_keepLeft (pageSize : Nat) (two : 2 ≤ node.keyCount)
    (slots_le : 88 + 4 * node.keyCount ≤ node.lowerBound) (small : node.lowerBound < 2 ^ 16) :
    ¬ (node.keepLeft pageSize (node.keyCount / 2)).Tidy := by
  intro tidy
  obtain ⟨count, lower⟩ := @keepLeft_bounds node pageSize (node.keyCount / 2) small
  have after := tidy.lower_eq
  omega

section

variable {pageSize : Nat} {types : List TypeID} {new : BPlusTreeNode} {separator : IndexKey}

theorem left_of_leaf_split
    (split : BPlusTreeLeaf.split pageSize types node new = .ok (separator, left, right)) :
    left = node.keepLeft pageSize (node.keyCount / 2) := by
  simp only [BPlusTreeLeaf.split, bind, Except.bind] at split
  repeat' split at split
  all_goals cases split
  rfl

theorem left_of_internal_split
    (split : BPlusTreeInternal.split pageSize types node new = .ok (separator, left, right)) :
    left = node.keepLeft pageSize (node.keyCount / 2) := by
  simp only [BPlusTreeInternal.split, bind, Except.bind] at split
  repeat' split at split
  all_goals cases split
  rfl

end

/-- No split of a node with two keys or more does what it is for. -/
theorem split_never_tidy (pageSize : Nat) (types : List TypeID)
    (node new left right : BPlusTreeNode) (separator : IndexKey) (two : 2 ≤ node.keyCount)
    (slots_le : 88 + 4 * node.keyCount ≤ node.lowerBound) (small : node.lowerBound < 2 ^ 16) :
    (BPlusTreeLeaf.split pageSize types node new = .ok (separator, left, right) →
      ¬ LeafParted node left right) ∧
    (BPlusTreeInternal.split pageSize types node new = .ok (separator, left, right) →
      ¬ InternalParted node separator left right) := by
  have untidy := not_tidy_keepLeft pageSize two slots_le small
  constructor
  · intro split parted
    rw [← left_of_leaf_split split] at untidy
    exact untidy parted.2.1
  · intro split parted
    rw [← left_of_internal_split split] at untidy
    exact untidy parted.2.1

def fullLeaf : BPlusTreeNode :=
  { BPlusTreeNode.empty true 0 126 with
    keyCount := 2
    freeSpace := 0
    lowerBound := 96
    upperBound := 96
    slots := fun slot =>
      if slot = 0 then some (113, .record [1, 0, 0, 0, 1, 0, 0, 0, 0] ⟨1, 0⟩)
      else some (96, .record [1, 0, 0, 0, 1, 0, 0, 0, 1] ⟨1, 1⟩) }

theorem tidy_fullLeaf : fullLeaf.Tidy :=
  ⟨rfl, by decide, ⟨1, by decide, rfl⟩, rfl⟩

theorem split_never_tidy_fullLeaf :
    2 ≤ fullLeaf.keyCount ∧ ∀ new left right separator,
      (BPlusTreeLeaf.split 126 [.boolean] fullLeaf new = .ok (separator, left, right) →
        ¬ LeafParted fullLeaf left right) ∧
      (BPlusTreeInternal.split 126 [.boolean] fullLeaf new = .ok (separator, left, right) →
        ¬ InternalParted fullLeaf separator left right) :=
  ⟨by decide, fun new left right separator =>
    split_never_tidy 126 [.boolean] fullLeaf new left right separator (by decide) (by decide)
      (by decide)⟩

/-- The full leaf is split, and the lower bound of the left node lies four
bytes above the end of its only slot. -/
theorem split_keeps_lower_bound : fullLeaf.Tidy ∧
    (BPlusTreeLeaf.insert 126 fullLeaf ⟨[.boolean true]⟩ ⟨1, 2⟩).map Prod.fst = .ok false ∧
    ∃ separator left right,
      BPlusTreeLeaf.split 126 [.boolean] fullLeaf (.empty true 0 126) =
        .ok (separator, left, right) ∧ ¬ LeafParted fullLeaf left right := by
  refine ⟨tidy_fullLeaf, by decide +kernel, ?_⟩
  have returns : (BPlusTreeLeaf.split 126 [.boolean] fullLeaf (.empty true 0 126)).isOk = true := by
    decide +kernel
  cases split : BPlusTreeLeaf.split 126 [.boolean] fullLeaf (.empty true 0 126) with
  | error failure =>
    contradiction
  | ok halves =>
    obtain ⟨separator, left, right⟩ := halves
    refine ⟨separator, left, right, rfl, fun parted => ?_⟩
    apply @not_tidy_keepLeft fullLeaf 126 (by decide) (by decide) (by decide)
    rw [← left_of_leaf_split split]
    exact parted.2.1

/-! ## Removing an entry of a leaf -/

open BPlusTreeLeaf

theorem entryAt_of_findEntry {search : List UInt8} {recordId : RecordID} {rounds index slot : Nat}
    (found : findEntry node search recordId rounds index = .ok (some slot)) :
    index ≤ slot ∧ slot < index + rounds ∧ entryAt node slot = .ok (search, recordId) := by
  induction rounds generalizing index with
  | zero => cases found
  | succ rounds ih =>
    simp only [findEntry, bind, Except.bind] at found
    split at found
    · cases found
    next entry here =>
      split_ifs at found with other same
      · cases found
      · cases found
        refine ⟨le_rfl, by omega, ?_⟩
        rw [here, ← not_not.mp other, ← same]
      · obtain ⟨low, high, there⟩ := ih found
        exact ⟨by omega, by omega, there⟩

/-- A removal that reports success takes out one slot with the key and the
record; the other slots keep their entries and their order. -/
theorem remove_erases_one {after : BPlusTreeNode} {key : IndexKey} {recordId : RecordID}
    (few : node.keyCount < 2 ^ 16) (removed : remove node key recordId = .ok (true, after)) :
    ∃ search index, key.bytes = .ok search ∧ entryAt node index = .ok (search, recordId) ∧
      index < node.keyCount ∧ after.keyCount + 1 = node.keyCount ∧ ∀ slot < after.keyCount,
        after.slots slot = node.slots (if slot < index then slot else slot + 1) := by
  simp only [remove, bind, Except.bind] at removed
  repeat' split at removed
  all_goals cases removed
  next search serialized _ _ index found =>
    obtain ⟨low, high, here⟩ := entryAt_of_findEntry found
    have count : sub16 node.keyCount 1 + 1 = node.keyCount := by
      unfold sub16
      omega
    refine ⟨search, index, serialized, here, by omega, count, fun slot small => ?_⟩
    change slot < sub16 node.keyCount 1 at small
    simp only [eraseSlot, updateFreeSpace]
    grind

theorem remove_erases_one_fullLeaf :
    ∃ after, remove fullLeaf ⟨[.boolean false]⟩ ⟨1, 0⟩ = .ok (true, after) ∧
      after.keyCount + 1 = fullLeaf.keyCount := by
  refine ⟨_, rfl, ?_⟩
  obtain ⟨_, _, _, _, _, count, _⟩ :=
    remove_erases_one (by decide) (rfl : remove fullLeaf ⟨[.boolean false]⟩ ⟨1, 0⟩ = _)
  exact count

end BPlusTreeNode

end KlyroDB
