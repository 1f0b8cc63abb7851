import KlyroDB.Values

/-!
# The text of JSON documents

`Json::operator==` compares what `to_string` prints.  Strings and keys are printed
as they are, so that a quote in one of them can take the place of a delimiter.
-/

namespace KlyroDB

namespace JsonNode

mutual

/-- No number occurs, and no quote in a string or key. -/
def Unquoted : JsonNode → Prop
  | .null | .boolean _ => True
  | .number _ => False
  | .string value => 34 ∉ value
  | .array elements => UnquotedElements elements
  | .object members => UnquotedMembers members

def UnquotedElements : List JsonNode → Prop
  | [] => True
  | element :: rest => Unquoted element ∧ UnquotedElements rest

def UnquotedMembers : List (List UInt8 × JsonNode) → Prop
  | [] => True
  | (key, value) :: rest => 34 ∉ key ∧ Unquoted value ∧ UnquotedMembers rest

end

theorem cut_at_quote {left right rest last : List UInt8} (one : 34 ∉ left) (two : 34 ∉ right)
    (same : left ++ 34 :: rest = right ++ 34 :: last) : left = right ∧ rest = last := by
  have cut : ∀ {text rest : List UInt8}, 34 ∉ text →
      (text ++ 34 :: rest).takeWhile (· ≠ 34) = text := by
    intro text rest free
    rw [List.takeWhile_append_of_pos (by simpa using fun c mem => ne_of_mem_of_not_mem mem free)]
    simp
  obtain rfl : left = right := by rw [← @cut left rest one, same, cut two]
  exact ⟨rfl, by simpa using same⟩

theorem toText_ne_close {node : JsonNode} {rest last : List UInt8} (plain : node.Unquoted) :
    node.toText ++ last ≠ 93 :: rest := by
  match node with
  | .boolean true | .boolean false | .null | .string _ | .array _ | .object _ =>
    simp [toText, ascii]

mutual

/-- The text of a document ends where it is complete, whatever follows. -/
theorem toText_append_inj {left right : JsonNode} {rest last : List UInt8}
    (one : left.Unquoted) (two : right.Unquoted)
    (same : left.toText ++ rest = right.toText ++ last) : left = right ∧ rest = last := by
  match left, right with
  | .number _, _ => simp [Unquoted] at one
  | _, .number _ => simp [Unquoted] at two
  | .boolean true, .boolean true | .boolean false, .boolean false | .null, .null =>
    simpa [toText, ascii] using same
  | .string _, .string _ =>
    simp [toText, ascii] at same
    exact (cut_at_quote one two same).imp_left (congrArg _)
  | .array _, .array _ =>
    simp [toText, ascii] at same
    exact (elementsText_append_inj one two same).imp_left (congrArg _)
  | .object _, .object _ =>
    simp [toText, ascii] at same
    exact (membersText_append_inj one two same).imp_left (congrArg _)

theorem elementsText_append_inj {left right : List JsonNode} {rest last : List UInt8}
    (one : UnquotedElements left) (two : UnquotedElements right)
    (same : elementsText left ++ 93 :: rest = elementsText right ++ 93 :: last) :
    left = right ∧ rest = last := by
  match left, right with
  | [], [] => simpa using same
  | [], other :: others =>
    simp only [elementsText, List.append_assoc] at same
    exact absurd same.symm (toText_ne_close two.1)
  | element :: elements, [] =>
    simp only [elementsText, List.append_assoc] at same
    exact absurd same (toText_ne_close one.1)
  | element :: elements, other :: others =>
    simp only [elementsText, List.append_assoc] at same
    obtain ⟨rfl, behind⟩ := toText_append_inj one.1 two.1 same
    match elements, others with
    | [], [] => simpa using behind
    | [], _ :: _ | _ :: _, [] => simp [elementsText, ascii] at behind
    | first :: elements, second :: others =>
      obtain ⟨tails, behind⟩ := elementsText_append_inj one.2 two.2 (List.append_cancel_left behind)
      exact ⟨congrArg _ tails, behind⟩

theorem membersText_append_inj {left right : List (List UInt8 × JsonNode)} {rest last : List UInt8}
    (one : UnquotedMembers left) (two : UnquotedMembers right)
    (same : membersText left ++ 125 :: rest = membersText right ++ 125 :: last) :
    left = right ∧ rest = last := by
  match left, right with
  | [], [] => simpa using same
  | [], (_, _) :: _ | (_, _) :: _, [] => simp [membersText, ascii] at same
  | (key, value) :: members, (name, other) :: others =>
    have quoted : ascii "\":" = [34, 58] := by decide
    simp only [membersText, List.append_assoc, quoted, List.append_cancel_left_eq] at same
    obtain ⟨rfl, behind⟩ := cut_at_quote one.1 two.1 same
    obtain ⟨rfl, after⟩ := toText_append_inj one.2.1 two.2.1 (List.cons.inj behind).2
    match members, others with
    | [], [] => simpa using after
    | [], (_, _) :: _ | (_, _) :: _, [] => simp [membersText, ascii] at after
    | first :: members, second :: others =>
      obtain ⟨tails, ends⟩ := membersText_append_inj one.2.2 two.2.2 (List.append_cancel_left after)
      exact ⟨congrArg _ tails, ends⟩

end

mutual

/-- `operator==` of `JsonNode`. -/
def same : JsonNode → JsonNode → Bool
  | .null, .null => true
  | .boolean left, .boolean right => left == right
  | .number left, .number right => FloatFormat.double.equals left.toNat right.toNat
  | .string left, .string right => left == right
  | .array left, .array right => sameElements left right
  | .object left, .object right => sameMembers left right
  | _, _ => false

def sameElements : List JsonNode → List JsonNode → Bool
  | [], [] => true
  | left :: lefts, right :: rights => same left right && sameElements lefts rights
  | _, _ => false

def sameMembers : List (List UInt8 × JsonNode) → List (List UInt8 × JsonNode) → Bool
  | [], [] => true
  | (key, left) :: lefts, (name, right) :: rights =>
      key == name && same left right && sameMembers lefts rights
  | _, _ => false

end

mutual

theorem same_iff {left right : JsonNode} (plain : left.Unquoted) :
    same left right = true ↔ left = right := by
  match left, right with
  | .number _, _ => simp [Unquoted] at plain
  | .null, right | .boolean _, right | .string _, right => cases right <;> simp [same]
  | .array _, .array _ => simp [same, sameElements_iff plain]
  | .object _, .object _ => simp [same, sameMembers_iff plain]
  | .array _, .null | .array _, .boolean _ | .array _, .number _ | .array _, .string _
  | .array _, .object _ | .object _, .null | .object _, .boolean _ | .object _, .number _
  | .object _, .string _ | .object _, .array _ => simp [same]

theorem sameElements_iff {left right : List JsonNode} (plain : UnquotedElements left) :
    sameElements left right = true ↔ left = right := by
  match left, right with
  | [], [] | [], _ :: _ | _ :: _, [] => simp [sameElements]
  | _ :: _, _ :: _ => simp [sameElements, same_iff plain.1, sameElements_iff plain.2]

theorem sameMembers_iff {left right : List (List UInt8 × JsonNode)} (plain : UnquotedMembers left) :
    sameMembers left right = true ↔ left = right := by
  match left, right with
  | [], [] | [], _ :: _ | _ :: _, [] => simp [sameMembers]
  | (_, _) :: _, (_, _) :: _ =>
    simp [sameMembers, same_iff plain.2.1, sameMembers_iff plain.2.2, and_assoc]

end

/-- `Json::operator==`. -/
def equal (left right : JsonNode) : Bool := left.toText == right.toText

/-- Without numbers and quotes, two documents are equal exactly if their trees are. -/
theorem equal_iff_same_tree {left right : JsonNode} (one : left.Unquoted) (two : right.Unquoted) :
    equal left right = true ↔ same left right = true := by
  simp only [equal, beq_iff_eq, same_iff one]
  constructor
  · intro same
    exact (@toText_append_inj left right [] [] one two (by rw [same])).1
  · rintro rfl
    rfl

theorem equal_iff_same_tree_object :
    equal (.object [(ascii "k", .string (ascii "a"))])
        (.object [(ascii "k", .array [.string (ascii "a")])]) = true ↔
      same (.object [(ascii "k", .string (ascii "a"))])
        (.object [(ascii "k", .array [.string (ascii "a")])]) = true :=
  equal_iff_same_tree (by simp [Unquoted, UnquotedMembers, ascii])
    (by simp [Unquoted, UnquotedElements, UnquotedMembers, ascii])

/-- A string with a quote, a comma and a quote is printed like two strings. -/
theorem equal_quoted : equal (.array [.string (ascii "a\",\"b")])
      (.array [.string (ascii "a"), .string (ascii "b")]) = true ∧
    same (.array [.string (ascii "a\",\"b")])
      (.array [.string (ascii "a"), .string (ascii "b")]) = false :=
  ⟨by decide, by simp [same, sameElements]⟩

end JsonNode

end KlyroDB
