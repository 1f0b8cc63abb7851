import KlyroDB.ParsedTrees

/-!
# The grammar of SELECT statements

The token sequences of a statement: columns, tables and a condition, with the
expressions in the order of their canonical trees.  The parser reads each of
them up to its end.
-/

namespace KlyroDB

open Token (reading)

/-- Columns are spelled with `AS` before their names. -/
inductive ResultColumn.Spelled : ResultColumn → List Token → Prop
  | star {token : Token} (isStar : token.type = .star) :
      Spelled ⟨.identifier (ascii "*"), []⟩ [token]
  | plain {tree : Expression} {tokens : List Token} (canonical : tree.Canonical)
      (inOrder : tokens.map reading = tree.inOrder) : Spelled ⟨tree, []⟩ tokens
  | named {tree : Expression} {tokens : List Token} {keyword name : Token}
      (canonical : tree.Canonical) (inOrder : tokens.map reading = tree.inOrder)
      (isAs : keyword.type = .as) (isName : name.type = .identifier) :
      Spelled ⟨tree, name.lexeme⟩ (tokens ++ [keyword, name])

inductive TableReference.Spelled : TableReference → List Token → Prop
  | plain {name : Token} (isName : name.type = .identifier) : Spelled ⟨name.lexeme, []⟩ [name]
  | named {name aliasName : Token} (isName : name.type = .identifier)
      (isAlias : aliasName.type = .identifier) :
      Spelled ⟨name.lexeme, aliasName.lexeme⟩ [name, aliasName]
  | namedAs {name keyword aliasName : Token} (isName : name.type = .identifier)
      (isAs : keyword.type = .as) (isAlias : aliasName.type = .identifier) :
      Spelled ⟨name.lexeme, aliasName.lexeme⟩ [name, keyword, aliasName]

inductive Separated {Item : Type} (Spelled : Item → List Token → Prop) :
    List Item → List Token → Prop
  | last {item : Item} {tokens : List Token} (spelled : Spelled item tokens) :
      Separated Spelled [item] tokens
  | further {item : Item} {items : List Item} {comma : Token} {tokens more : List Token}
      (spelled : Spelled item tokens) (isComma : comma.type = .comma)
      (later : Separated Spelled items more) :
      Separated Spelled (item :: items) (tokens ++ comma :: more)

inductive Condition : Option Expression → List Token → Prop
  | absent : Condition none []
  | present {keyword : Token} {tree : Expression} {tokens : List Token}
      (isWhere : keyword.type = .whereKeyword) (canonical : tree.Canonical)
      (inOrder : tokens.map reading = tree.inOrder) : Condition (some tree) (keyword :: tokens)

inductive FromClause : List TableReference → List Token → Prop
  | absent : FromClause [] []
  | present {keyword : Token} {tables : List TableReference} {tokens : List Token}
      (isFrom : keyword.type = .fromKeyword)
      (spelled : Separated TableReference.Spelled tables tokens) :
      FromClause tables (keyword :: tokens)

/-- Without columns there is a FROM clause. -/
inductive SelectStatement.Spelled : SelectStatement → List Token → Prop
  | clauses {projection : List ResultColumn} {fromTables : List TableReference}
      {whereClause : Option Expression} {select : Token} {columns tables condition : List Token}
      (isSelect : select.type = .select)
      (spelled : Separated ResultColumn.Spelled projection columns ∨
        projection = [] ∧ columns = [] ∧ tables ≠ [])
      (spelledFrom : FromClause fromTables tables)
      (spelledWhere : Condition whereClause condition) :
      Spelled ⟨projection, fromTables, whereClause⟩ (select :: (columns ++ (tables ++ condition)))

namespace Parser

attribute [local simp] bind Except.bind pure Except.pure

def Follows (types : List TokenType) (rest : List Token) : Prop :=
  ∃ next more, rest = next :: more ∧ next.type ∈ types

theorem Follows.mono {few many : List TokenType} {rest : List Token} (follows : Follows few rest)
    (subset : few ⊆ many) : Follows many rest := by
  obtain ⟨next, more, rfl, member⟩ := follows
  exact ⟨next, more, rfl, subset member⟩

theorem Follows.head {types : List TokenType} {rest : List Token} (follows : Follows types rest) :
    ∃ next more, rest = next :: more ∧ ∀ type, type ∉ types → next.type ≠ type := by
  obtain ⟨next, more, rfl, member⟩ := follows
  refine ⟨next, more, rfl, ?_⟩
  rintro _ other rfl
  exact other member

/-- What may follow a column or a table. -/
abbrev EndsItem : List Token → Prop :=
  Follows [.comma, .fromKeyword, .whereKeyword, .semicolon, .eof]

section Items

variable {tokens rest : List Token} (passed : List Token)

theorem parseExpression_inOrder {tree : Expression} (canonical : tree.Canonical)
    (inOrder : tokens.map reading = tree.inOrder)
    (ends : Follows [.comma, .as, .fromKeyword, .whereKeyword, .semicolon, .eof] rest) :
    parseExpression .assignment ⟨passed, tokens ++ rest⟩ =
      .ok (tree, ⟨tokens.reverse ++ passed, rest⟩) := by
  obtain ⟨next, more, rfl, member⟩ := ends
  have loose : (getPrecedence next.type).rank ≤ Precedence.assignment.rank ∧
      next.type ≠ .leftParen := by
    generalize next.type = type at member
    revert type
    decide
  exact (completes_of_canonical canonical).parse inOrder (by simp) (root_tighter canonical)
    loose.1 (fun opens => absurd opens loose.2) passed more

theorem parseColumn_spelled {column : ResultColumn} (spelled : column.Spelled tokens)
    (ends : EndsItem rest) :
    parseColumn ⟨passed, tokens ++ rest⟩ = .ok (column, ⟨tokens.reverse ++ passed, rest⟩) := by
  obtain ⟨next, more, rfl, others⟩ := ends.head
  cases spelled with
  | star isStar => simp [parseColumn, matchType_cons, isStar]
  | plain canonical inOrder =>
    have parsed := parseExpression_inOrder passed canonical inOrder (ends.mono (by decide))
    obtain ⟨token, more, rfl, starts⟩ := tokens_start canonical inOrder
    simp only [List.cons_append] at parsed ⊢
    simp [parseColumn, matchType_cons, (ne_of_startsExpression starts).2.1, parsed,
      others .as (by decide)]
  | @named _ tokens keyword name canonical inOrder isAs isName =>
    have parsed := parseExpression_inOrder passed canonical inOrder
      ⟨keyword, name :: next :: more, rfl, by simp [isAs]⟩
    obtain ⟨token, more, rfl, starts⟩ := tokens_start canonical inOrder
    simp only [List.cons_append, List.append_assoc, List.nil_append] at parsed ⊢
    simp [parseColumn, matchType_cons, (ne_of_startsExpression starts).2.1, parsed, isAs,
      consume_cons, isName]

theorem parseTable_spelled {table : TableReference} (spelled : table.Spelled tokens)
    (ends : EndsItem rest) :
    parseTable ⟨passed, tokens ++ rest⟩ = .ok (table, ⟨tokens.reverse ++ passed, rest⟩) := by
  obtain ⟨next, more, rfl, others⟩ := ends.head
  cases spelled with
  | plain isName =>
    simp [parseTable, consume_cons, isName, matchType_cons, check_cons, others .as (by decide),
      others .identifier (by decide)]
  | named isName isAlias =>
    simp [parseTable, consume_cons, isName, matchType_cons, check_cons, isAlias, advance_cons]
  | namedAs isName isAs isAlias =>
    simp [parseTable, consume_cons, isName, matchType_cons, isAs, isAlias]

theorem parseList_spelled {Item : Type} {parseItem : Parser → Except SqlFailure (Item × Parser)}
    {Spelled : Item → List Token → Prop}
    (reads : ∀ passed item tokens rest, Spelled item tokens → EndsItem rest →
      parseItem ⟨passed, tokens ++ rest⟩ = .ok (item, ⟨tokens.reverse ++ passed, rest⟩))
    {items : List Item} (spelled : Separated Spelled items tokens)
    (ends : Follows [.fromKeyword, .whereKeyword, .semicolon, .eof] rest) {rounds : Nat}
    (enough : tokens.length < rounds) :
    parseList parseItem rounds ⟨passed, tokens ++ rest⟩ =
      .ok (items, ⟨tokens.reverse ++ passed, rest⟩) := by
  induction spelled generalizing rounds passed with
  | last spelled =>
    obtain ⟨rounds, rfl⟩ := Nat.exists_eq_add_one_of_ne_zero (Nat.ne_zero_of_lt enough)
    have read := reads passed _ _ _ spelled (ends.mono (by decide))
    obtain ⟨next, more, rfl, others⟩ := ends.head
    simp [parseList, read, matchType_cons, others .comma (by decide)]
  | @further _ _ comma _ later spelled isComma _ induction =>
    obtain ⟨rounds, rfl⟩ := Nat.exists_eq_add_one_of_ne_zero (Nat.ne_zero_of_lt enough)
    simp only [List.length_append, List.length_cons] at enough
    have read := reads passed _ _ _ spelled ⟨comma, later ++ rest, rfl, by simp [isComma]⟩
    simp only [List.append_assoc, List.cons_append]
    simp [parseList, read, matchType_cons, isComma, @induction _ rounds (by omega)]

theorem parseWhere_spelled {condition : Option Expression} (spelled : Condition condition tokens)
    (ends : Follows [.semicolon, .eof] rest) :
    parseWhere ⟨passed, tokens ++ rest⟩ = .ok (condition, ⟨tokens.reverse ++ passed, rest⟩) := by
  cases spelled with
  | absent =>
    obtain ⟨next, more, rfl, others⟩ := ends.head
    simp [parseWhere, matchType_cons, others .whereKeyword (by decide)]
  | present isWhere canonical inOrder =>
    have parsed := fun passed => parseExpression_inOrder passed canonical inOrder
      (ends.mono (by decide))
    simp [parseWhere, matchType_cons, isWhere, parsed]

theorem parseFrom_spelled {tables : List TableReference} (spelled : FromClause tables tokens)
    (ends : Follows [.whereKeyword, .semicolon, .eof] rest) :
    parseFrom ⟨passed, tokens ++ rest⟩ = .ok (tables, ⟨tokens.reverse ++ passed, rest⟩) := by
  cases spelled with
  | absent =>
    obtain ⟨next, more, rfl, others⟩ := ends.head
    simp [parseFrom, matchType_cons, others .fromKeyword (by decide)]
  | @present keyword _ tokens isFrom spelled =>
    have parsed := parseList_spelled (keyword :: passed)
      (fun passed _ _ _ => parseTable_spelled passed) spelled
      (ends.mono (by decide)) (Nat.lt_succ_of_le (List.prefix_append tokens rest).length_le)
    simpa [parseFrom, matchType_cons, isFrom] using parsed

theorem parseProjection_spelled {columns : List ResultColumn}
    (spelled : Separated ResultColumn.Spelled columns tokens)
    (ends : Follows [.fromKeyword, .whereKeyword, .semicolon, .eof] rest) :
    parseProjection ⟨passed, tokens ++ rest⟩ =
      .ok (columns, ⟨tokens.reverse ++ passed, rest⟩) := by
  have parsed := parseList_spelled passed (fun passed _ _ _ => parseColumn_spelled passed) spelled
    ends (Nat.lt_succ_of_le (List.prefix_append tokens rest).length_le)
  have first : ∀ {column tokens}, ResultColumn.Spelled column tokens →
      ∃ token more, tokens = token :: more ∧ token.type ≠ .fromKeyword := by
    intro column tokens spelled
    cases spelled with
    | star isStar => exact ⟨_, _, rfl, by simp [isStar]⟩
    | plain canonical inOrder | named canonical inOrder =>
      obtain ⟨token, more, rfl, starts⟩ := tokens_start canonical inOrder
      exact ⟨token, _, rfl, fun isFrom => by simp [isFrom, startsExpression] at starts⟩
  have begins : ∃ token more, tokens = token :: more ∧ token.type ≠ .fromKeyword := by
    cases spelled with
    | last spelled => exact first spelled
    | further spelled =>
      obtain ⟨token, more, rfl, other⟩ := first spelled
      exact ⟨token, _, rfl, other⟩
  obtain ⟨token, more, rfl, other⟩ := begins
  simpa [parseProjection, check_cons, other] using parsed

end Items

/-- Only a semicolon may stand before the end marker. -/
def OnlyEndLeft (tokens : List Token) : Prop :=
  tokens.map Token.type = [.eof] ∨ tokens.map Token.type = [.semicolon, .eof]

theorem OnlyEndLeft.follows {ending : List Token} (ends : OnlyEndLeft ending) :
    Follows [.semicolon, .eof] ending := by
  rcases ends with types | types <;>
    obtain ⟨next, more, rfl, isNext, -⟩ := List.map_eq_cons_iff.mp types <;>
    exact ⟨next, more, rfl, by simp [isNext]⟩

/-- A statement is read up to its end. -/
theorem parseStatement_spelled {statement : SelectStatement} {tokens ending : List Token}
    (spelled : statement.Spelled tokens) (ends : OnlyEndLeft ending) :
    parseStatement ⟨[], tokens ++ ending⟩ = .ok (statement, ⟨tokens.reverse, ending⟩) := by
  cases spelled with
  | @clauses projection _ _ select columns tables condition isSelect spelled spelledFrom
      spelledWhere =>
    have afterTables : Follows [.whereKeyword, .semicolon, .eof] (condition ++ ending) := by
      cases spelledWhere with
      | absent => exact ends.follows.mono (by decide)
      | present isWhere => exact ⟨_, _, rfl, by simp [isWhere]⟩
    have projected : parseProjection ⟨[select], columns ++ (tables ++ (condition ++ ending))⟩ =
        .ok (projection, ⟨columns.reverse ++ [select], tables ++ (condition ++ ending)⟩) := by
      rcases spelled with spelled | ⟨rfl, rfl, nonempty⟩
      · apply parseProjection_spelled _ spelled
        cases spelledFrom with
        | absent => exact afterTables.mono (by decide)
        | present isFrom => exact ⟨_, _, rfl, by simp [isFrom]⟩
      · cases spelledFrom with
        | absent => exact absurd rfl nonempty
        | present isFrom => simp [parseProjection, check_cons, isFrom]
    simp only [List.cons_append, List.append_assoc]
    simp [parseStatement, matchType_cons, isSelect, parseSelect, projected,
      parseFrom_spelled _ spelledFrom afterTables, parseWhere_spelled _ spelledWhere ends.follows]

end Parser

end KlyroDB
