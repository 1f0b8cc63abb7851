import KlyroDB.Parser

/-!
# The expression parser and its grammar

The trees that `parse_expression` can return are the canonical ones: precedences
decide how binary operators are nested, since there are no parentheses.
-/

namespace KlyroDB

inductive TokenContent
  | mark
  | text (lexeme : List UInt8)
  | number (value : Option Int)
  deriving DecidableEq

/-- The type of a token and what the parser takes from its lexeme: integers
are compared by value, and operators only by their type. -/
def Token.reading (token : Token) : TokenType × TokenContent :=
  (token.type,
    match token.type with
    | .integerLiteral => .number (stoll token.lexeme).toOption
    | .identifier | .parameter | .stringLiteral => .text token.lexeme
    | _ => .mark)

namespace Expression

mutual

def inOrder : Expression → List (TokenType × TokenContent)
  | .literal (.integer value) => [(.integerLiteral, .number (some value.toInt))]
  | .literal (.string value _) => [(.stringLiteral, .text value)]
  | .literal (.boolean value) => [(if value then .true else .false, .mark)]
  | .literal _ => []
  | .identifier name => [(.identifier, .text name)]
  | .parameter name => [(.parameter, .text name)]
  | .unary op operand => (op, .mark) :: inOrder operand
  | .binary left op right => inOrder left ++ (op, .mark) :: inOrder right
  | .call name arguments isDistinct =>
      (.identifier, .text name) :: (.leftParen, .mark) ::
        ((if isDistinct then [(.distinct, .mark)] else []) ++
          argumentsInOrder arguments ++ [(.rightParen, .mark)])

def argumentsInOrder : List Expression → List (TokenType × TokenContent)
  | [] => []
  | argument :: rest =>
      inOrder argument ++
        if rest.isEmpty then [] else (.comma, .mark) :: argumentsInOrder rest

end

def root : Expression → Option Precedence
  | .binary _ op _ => some (Parser.getPrecedence op)
  | _ => none

def IsLiteral : Value → Prop
  | .integer _ => True
  | .string _ kind => kind = .text
  | .boolean _ => True
  | _ => False

mutual

/-- Operators of the same precedence are nested to the left and others by
their precedence, and no unary operator stands before a binary tree. -/
def Canonical : Expression → Prop
  | .literal value => IsLiteral value
  | .identifier _ => True
  | .parameter _ => True
  | .unary op operand => (op = .minus ∨ op = .not) ∧ operand.root = none ∧ Canonical operand
  | .binary left op right => Parser.getPrecedence op ≠ .none ∧ (∀ inner ∈ left.root,
      (Parser.getPrecedence op).rank ≤ inner.rank) ∧ (∀ inner ∈ right.root,
      (Parser.getPrecedence op).rank < inner.rank) ∧ Canonical left ∧ Canonical right
  | .call _ arguments _ => AllCanonical arguments

def AllCanonical : List Expression → Prop
  | [] => True
  | argument :: rest => Canonical argument ∧ AllCanonical rest

end

end Expression

attribute [local simp] bind Except.bind pure Except.pure

namespace Parser

/-! ## Single tokens -/

section Steps

variable {type : TokenType} (passed rest : List Token) (token : Token)

@[simp] theorem peek_nil : peek ⟨passed, []⟩ = .error .outOfBounds := rfl

@[simp] theorem peek_cons : peek ⟨passed, token :: rest⟩ = .ok token := rfl

@[simp] theorem isAtEnd_nil : isAtEnd ⟨passed, []⟩ = .error .outOfBounds :=
  rfl

@[simp] theorem isAtEnd_cons :
    isAtEnd ⟨passed, token :: rest⟩ = .ok (decide (token.type = .eof)) := rfl

@[simp] theorem check_nil : check ⟨passed, []⟩ type = .error .outOfBounds :=
  rfl

theorem check_cons (real : type ≠ .eof) :
    check ⟨passed, token :: rest⟩ type = .ok (decide (token.type = type)) := by
  by_cases atEnd : token.type = .eof
  · simp [check, atEnd, real.symm]
  · simp [check, atEnd]

theorem advance_cons {token : Token} (real : token.type ≠ .eof) :
    advance ⟨passed, token :: rest⟩ = .ok (token, ⟨token :: passed, rest⟩) := by
  simp [advance, real, step, previous]

@[simp] theorem matchType_nil : matchType ⟨passed, []⟩ type = .error .outOfBounds := rfl

theorem matchType_cons (real : type ≠ .eof) :
    matchType ⟨passed, token :: rest⟩ type =
      .ok (if token.type = type then (true, ⟨token :: passed, rest⟩)
        else (false, ⟨passed, token :: rest⟩)) := by
  by_cases same : token.type = type
  · have notEnd : token.type ≠ .eof := by rwa [same]
    simp [matchType, check_cons _ _ _ real, advance_cons _ _ notEnd, same]
  · simp [matchType, check_cons _ _ _ real, same]

@[simp] theorem consume_nil (message : String) :
    consume ⟨passed, []⟩ type message = .error .outOfBounds := rfl

theorem consume_cons (real : type ≠ .eof) (message : String) :
    consume ⟨passed, token :: rest⟩ type message =
      if token.type = type then .ok (token, ⟨token :: passed, rest⟩)
      else .error (.status .invalidArgument) := by
  by_cases same : token.type = type
  · have notEnd : token.type ≠ .eof := by rwa [same]
    simp [consume, check_cons _ _ _ real, advance_cons _ _ notEnd, same]
  · simp [consume, check_cons _ _ _ real, same, SqlFailure.makeError]

end Steps

/-! ## Precedences and the infix loop -/

theorem rank_getPrecedence_lt_unary (type : TokenType) :
    (getPrecedence type).rank < Precedence.unary.rank := by
  cases type <;> decide

theorem assignment_lt_rank_getPrecedence {type : TokenType} (binds : getPrecedence type ≠ .none) :
    Precedence.assignment.rank < (getPrecedence type).rank := by
  cases type <;> first | decide | exact absurd rfl binds

def startsExpression : TokenType → Bool
  | .integerLiteral | .stringLiteral | .true | .false | .identifier
  | .parameter | .minus | .not => true
  | _ => false

section Loop

variable {parse : ParseExpression} {precedence : Precedence}

theorem parseWithin_cons {depth : Nat} {token : Token}
    (real : token.type ≠ .eof) (passed rest : List Token) :
    parseWithin (depth + 1) precedence ⟨passed, token :: rest⟩ =
      (parsePrefix (parseWithin depth) token ⟨token :: passed, rest⟩).bind
        fun found => infixLoop (parseWithin depth) precedence
          (found.2.rest.length + 1) found.1 found.2 := by simp [parseWithin, real, advance_cons]

theorem infixLoop_of_stop {next : Token} (ends : (getPrecedence next.type).rank ≤ precedence.rank)
    (rounds : Nat) (left : Expression) (passed more : List Token) :
    infixLoop parse precedence (rounds + 1) left ⟨passed, next :: more⟩ =
      .ok (left, ⟨passed, next :: more⟩) := by simp [infixLoop, Nat.not_lt.mpr ends]

theorem infixLoop_of_bind {next : Token} (binds : precedence.rank < (getPrecedence next.type).rank)
    (rounds : Nat) (left : Expression) (passed more : List Token) :
    infixLoop parse precedence (rounds + 1) left ⟨passed, next :: more⟩ =
      (parse (getPrecedence next.type) ⟨next :: passed, more⟩).bind
        fun found => infixLoop parse precedence rounds
          (.binary left next.type found.1) found.2 := by
  have real : next.type ≠ .eof := by
    intro eof
    rw [eof] at binds
    exact absurd binds (Nat.not_lt_zero _)
  simp only [infixLoop, bind, Except.bind, pure, Except.pure, peek_cons, binds,
    if_true, advance_cons _ _ real, parseInfix]
  cases parse (getPrecedence next.type) ⟨next :: passed, more⟩ <;> rfl

theorem infixLoop_of_le {few many : Nat} (le : few ≤ many)
    {left : Expression} {parser : Parser} {result : Expression × Parser}
    (ends : infixLoop parse precedence few left parser = .ok result) :
    infixLoop parse precedence many left parser = .ok result := by
  induction few generalizing many left parser with
  | zero => simp [infixLoop] at ends
  | succ few induction =>
    obtain ⟨many, rfl⟩ : ∃ fewer, many = fewer + 1 := ⟨many - 1, by omega⟩
    obtain ⟨passed, rest⟩ := parser
    cases rest with
    | nil => simp [infixLoop] at ends
    | cons next more =>
      by_cases binds : precedence.rank < (getPrecedence next.type).rank
      · rw [infixLoop_of_bind binds] at ends ⊢
        cases right : parse (getPrecedence next.type) ⟨next :: passed, more⟩ with
        | error failure => simp [right] at ends
        | ok found =>
          simp only [right, Except.bind] at ends ⊢
          exact induction (by omega) ends
      · rw [infixLoop_of_stop (Nat.not_lt.mp binds)] at ends ⊢
        exact ends

end Loop

end Parser

namespace Expression

/-- Induction over a tree, with a hypothesis for every argument of a call. -/
theorem induction {P : Expression → Prop} (literal : ∀ value, P (.literal value))
    (identifier : ∀ name, P (.identifier name)) (parameter : ∀ name, P (.parameter name))
    (unary : ∀ op operand, P operand → P (.unary op operand))
    (binary : ∀ left op right, P left → P right → P (.binary left op right))
    (call : ∀ name arguments isDistinct, (∀ argument ∈ arguments, P argument) →
      P (.call name arguments isDistinct)) (tree : Expression) : P tree :=
  @Expression.rec P (fun arguments => ∀ argument ∈ arguments, P argument) literal identifier
    parameter unary binary call (fun _ mem => absurd mem List.not_mem_nil) (fun head tail
    first others argument mem => by
      rcases List.mem_cons.mp mem with rfl | other
      · exact first
      · exact others argument other)
    tree

def endsInIdentifier : Expression → Bool
  | .identifier _ => true
  | .unary _ operand => operand.endsInIdentifier
  | .binary _ _ right => right.endsInIdentifier
  | _ => false

theorem IsLiteral.cases {value : Value} (literal : IsLiteral value) :
    (∃ number, value = .integer number) ∨
      (∃ text, value = .string text .text) ∨ ∃ truth, value = .boolean truth := by
  cases value with
  | integer number => exact Or.inl ⟨number, rfl⟩
  | string text kind =>
    cases literal
    exact Or.inr (Or.inl ⟨text, rfl⟩)
  | boolean truth => exact Or.inr (Or.inr ⟨truth, rfl⟩)
  | _ => exact literal.elim

theorem inOrder_starts {tree : Expression} (canonical : tree.Canonical) :
    ∃ type content more, tree.inOrder = (type, content) :: more ∧
      Parser.startsExpression type = true := by
  induction tree using Expression.induction with
  | literal value =>
    rcases IsLiteral.cases canonical with
      ⟨number, rfl⟩ | ⟨text, rfl⟩ | ⟨truth, rfl⟩
    · exact ⟨_, _, _, by rw [inOrder], rfl⟩
    · exact ⟨_, _, _, by rw [inOrder], rfl⟩
    · cases truth <;> exact ⟨_, _, _, by rw [inOrder], rfl⟩
  | identifier name | parameter name => exact ⟨_, _, _, by rw [inOrder], rfl⟩
  | unary op operand _ =>
    obtain ⟨operator, -⟩ := canonical
    rcases operator with rfl | rfl <;> exact ⟨_, _, _, by rw [inOrder], rfl⟩
  | binary left op right leftStarts _ =>
    obtain ⟨-, -, -, canonicalLeft, -⟩ := canonical
    obtain ⟨type, content, more, first, starts⟩ := leftStarts canonicalLeft
    exact ⟨type, content, _, by rw [inOrder, first]; rfl, starts⟩
  | call name arguments isDistinct _ => exact ⟨_, _, _, by rw [inOrder], rfl⟩

theorem inOrder_last_of_endsInIdentifier {tree : Expression}
    (named : tree.endsInIdentifier = true) :
    ∃ before name, tree.inOrder = before ++ [(.identifier, .text name)] := by
  induction tree using Expression.induction with
  | literal _ | parameter _ | call _ _ _ _ => simp [endsInIdentifier] at named
  | identifier name => exact ⟨[], name, by rw [inOrder]; rfl⟩
  | unary op operand last =>
    obtain ⟨before, name, split⟩ := last named
    exact ⟨(op, .mark) :: before, name, by rw [inOrder, split]; rfl⟩
  | binary left op right _ last =>
    obtain ⟨before, name, split⟩ := last named
    exact ⟨left.inOrder ++ (op, .mark) :: before, name, by
      rw [inOrder, split]; simp⟩

theorem allCanonical_iff {arguments : List Expression} :
    AllCanonical arguments ↔ ∀ argument ∈ arguments, argument.Canonical := by
  induction arguments with
  | nil => simp [AllCanonical]
  | cons argument rest induction => simp [AllCanonical, induction]

end Expression

namespace Parser

/-! ## Reading the tokens of a canonical tree -/

/-- Before tokens that end the tree or go on with an operator that does not
bind tighter than its root, the parser reads the tree and goes on with the
infix loop. -/
def Completes (tree : Expression) : Prop :=
  ∀ (depth : Nat) (precedence : Precedence) (passed tokens : List Token) (next : Token)
    (more : List Token) (result : Expression × Parser),
    tokens.map Token.reading = tree.inOrder → tokens.length ≤ depth →
    (∀ inner ∈ tree.root, precedence.rank < inner.rank) →
    (∀ inner ∈ tree.root, (getPrecedence next.type).rank ≤ inner.rank) →
    (next.type = .leftParen → tree.endsInIdentifier = false) →
    infixLoop (parseWithin depth) precedence (more.length + 2) tree
      ⟨tokens.reverse ++ passed, next :: more⟩ = .ok result →
    parseWithin (depth + 1) precedence ⟨passed, tokens ++ next :: more⟩ = .ok result

variable {tree : Expression} {depth : Nat} {tokens : List Token} {arguments : List Expression}

theorem Completes.parse (completes : Completes tree) {precedence : Precedence}
    {next : Token} (spelled : tokens.map Token.reading = tree.inOrder)
    (enough : tokens.length ≤ depth) (tighter : ∀ inner ∈ tree.root, precedence.rank < inner.rank)
    (ends : (getPrecedence next.type).rank ≤ precedence.rank)
    (noCall : next.type = .leftParen → tree.endsInIdentifier = false) (passed more : List Token) :
    parseWithin (depth + 1) precedence ⟨passed, tokens ++ next :: more⟩ =
      .ok (tree, ⟨tokens.reverse ++ passed, next :: more⟩) := by
  apply completes depth precedence passed tokens next more _ spelled enough tighter _ noCall
  · exact infixLoop_of_stop ends _ _ _ _
  · intro inner mem
    have outer := tighter inner mem
    omega

theorem completes_of_atom {type : TokenType} {content : TokenContent}
    (spelling : tree.inOrder = [(type, content)]) (reads : ∀ token : Token, token.type = type →
      token.reading.2 = content → token.type ≠ .eof ∧
      ∀ parse passed next more, (next.type = .leftParen → tree.endsInIdentifier = false) →
        parsePrefix parse token ⟨passed, next :: more⟩ =
          .ok (tree, ⟨passed, next :: more⟩)) : Completes tree := by
  intro depth precedence passed tokens next more result spelled _ _ _ noCall loop
  rw [spelling, List.map_eq_singleton_iff] at spelled
  obtain ⟨token, rfl, reading_eq⟩ := spelled
  obtain ⟨real, first⟩ := reads token (congrArg Prod.fst reading_eq) (congrArg Prod.snd reading_eq)
  rw [List.singleton_append, parseWithin_cons real, first _ _ _ _ noCall]
  exact loop

theorem completes_literal {value : Value} (literal : Expression.IsLiteral value) :
    Completes (.literal value) := by
  rcases literal.cases with ⟨number, rfl⟩ | ⟨text, rfl⟩ | ⟨truth, rfl⟩
  · apply completes_of_atom (Expression.inOrder.eq_1 number)
    intro token type_eq content
    simp only [Token.reading, type_eq, TokenContent.number.injEq] at content
    constructor
    · simp [type_eq]
    intro parse passed next more _
    cases parsed : stoll token.lexeme with
    | error failure => simp [parsed, Except.toOption] at content
    | ok found =>
      simp only [parsed, Except.toOption, Option.some.injEq] at content
      simp [parsePrefix, type_eq, parsed, content]
  · apply completes_of_atom (Expression.inOrder.eq_2 text .text)
    intro token type_eq content
    simp only [Token.reading, type_eq, TokenContent.text.injEq] at content
    simp [parsePrefix, type_eq, content]
  · apply completes_of_atom (Expression.inOrder.eq_3 truth)
    intro token type_eq _
    cases truth <;> simp_all [parsePrefix]

theorem completes_identifier (name : List UInt8) : Completes (.identifier name) := by
  apply completes_of_atom (by rw [Expression.inOrder])
  intro token type_eq content
  simp only [Token.reading, type_eq, TokenContent.text.injEq] at content
  constructor
  · simp [type_eq]
  intro parse passed next more noCall
  have notOpen : next.type ≠ .leftParen := by
    intro opens
    simp [Expression.endsInIdentifier] at noCall
    exact noCall opens
  simp [parsePrefix, type_eq, check_cons, notOpen, content]

theorem completes_parameter (name : List UInt8) : Completes (.parameter name) := by
  apply completes_of_atom (by rw [Expression.inOrder])
  intro token type_eq content
  simp only [Token.reading, type_eq, TokenContent.text.injEq] at content
  simp [parsePrefix, type_eq, content]

theorem completes_unary {op : TokenType} {operand : Expression}
    (operator : op = .minus ∨ op = .not) (single : operand.root = none)
    (completes : Completes operand) : Completes (.unary op operand) := by
  intro depth precedence passed tokens next more result spelled enough _ _ noCall loop
  rw [Expression.inOrder, List.map_eq_cons_iff] at spelled
  obtain ⟨token, inner, rfl, reading, spelledInner⟩ := spelled
  obtain ⟨type_eq, -⟩ := Prod.mk.inj reading
  obtain ⟨depth, rfl⟩ : ∃ less, depth = less + 1 := ⟨depth - 1, by simp at enough; omega⟩
  have operandRead := completes.parse spelledInner (by simpa using enough) (by simp [single])
    (rank_getPrecedence_lt_unary next.type).le noCall (token :: passed) more
  have first : parsePrefix (parseWithin (depth + 1)) token ⟨token :: passed, inner ++ next :: more⟩
      = .ok (.unary op operand, ⟨inner.reverse ++ token :: passed, next :: more⟩) := by
    rcases operator with rfl | rfl <;> simp [parsePrefix, type_eq, operandRead]
  have real : token.type ≠ .eof := by
    rcases operator with rfl | rfl <;> simp [type_eq]
  simp only [List.reverse_cons, List.append_assoc, List.singleton_append] at loop
  rw [List.cons_append, parseWithin_cons real, first]
  exact loop

theorem completes_binary {left right : Expression} {op : TokenType}
    (canonical : (Expression.binary left op right).Canonical)
    (completesLeft : Completes left) (completesRight : Completes right) :
    Completes (.binary left op right) := by
  obtain ⟨binds, leftTighter, rightTighter, -, -⟩ := canonical
  intro depth precedence passed tokens next more result spelled enough tighter ends noCall loop
  have tighterHere : precedence.rank < (getPrecedence op).rank := tighter _ rfl
  have endsHere : (getPrecedence next.type).rank ≤ (getPrecedence op).rank := ends _ rfl
  rw [Expression.inOrder, List.map_eq_append_iff] at spelled
  obtain ⟨leftTokens, later, rfl, spelledLeft, spelledLater⟩ := spelled
  rw [List.map_eq_cons_iff] at spelledLater
  obtain ⟨token, rightTokens, rfl, reading, spelledRight⟩ := spelledLater
  obtain ⟨rfl, -⟩ := Prod.mk.inj reading
  simp only [List.length_append, List.length_cons] at enough
  obtain ⟨depth, rfl⟩ : ∃ less, depth = less + 1 := ⟨depth - 1, by omega⟩
  have fewRight : rightTokens.length ≤ depth := by omega
  have rightRead := completesRight.parse spelledRight fewRight rightTighter
    endsHere noCall (token :: (leftTokens.reverse ++ passed)) more
  have goesOn : infixLoop (parseWithin (depth + 1)) precedence
      ((rightTokens ++ next :: more).length + 2) left ⟨leftTokens.reverse ++ passed, token ::
      (rightTokens ++ next :: more)⟩ = .ok result := by
    rw [infixLoop_of_bind tighterHere, rightRead]
    apply infixLoop_of_le _ (by simpa using loop)
    simp only [List.length_append, List.length_cons]
    omega
  have leftRead := completesLeft (depth + 1) precedence passed leftTokens token
    (rightTokens ++ next :: more) result spelledLeft (by omega) (fun inner mem => by
      have outer := leftTighter inner mem
      omega)
    leftTighter
    (fun opens => by rw [opens] at binds; exact absurd rfl binds) goesOn
  simpa using leftRead

/-- The tokens of a canonical tree begin with a token that starts an
expression. -/
theorem tokens_start (canonical : tree.Canonical)
    (spelled : tokens.map Token.reading = tree.inOrder) :
    ∃ token rest, tokens = token :: rest ∧ startsExpression token.type = true := by
  obtain ⟨type, content, more, first, starts⟩ := Expression.inOrder_starts canonical
  rw [first, List.map_eq_cons_iff] at spelled
  obtain ⟨token, rest, rfl, reading, -⟩ := spelled
  obtain ⟨rfl, -⟩ := Prod.mk.inj reading
  exact ⟨token, rest, rfl, starts⟩

theorem ne_of_startsExpression {type : TokenType} (starts : startsExpression type = true) :
    type ≠ .eof ∧ type ≠ .star ∧ type ≠ .distinct ∧ type ≠ .rightParen := by
  cases type <;> simp_all [startsExpression]

theorem root_tighter (canonical : tree.Canonical) :
    ∀ inner ∈ tree.root, Precedence.assignment.rank < inner.rank := by
  intro inner mem
  cases tree with
  | binary left op right =>
    obtain ⟨binds, -⟩ := canonical
    cases mem
    exact assignment_lt_rank_getPrecedence binds
  | _ => cases mem

section

variable (canonical : ∀ argument ∈ arguments, argument.Canonical)

include canonical

theorem arguments_start (spelled : tokens.map Token.reading =
      Expression.argumentsInOrder arguments) : arguments = [] ∧ tokens = [] ∨
      arguments ≠ [] ∧ ∃ token rest, tokens = token :: rest ∧
        startsExpression token.type = true := by
  cases arguments with
  | nil => simpa [Expression.argumentsInOrder] using spelled
  | cons argument rest =>
    simp only [List.forall_mem_cons] at canonical
    rw [Expression.argumentsInOrder, List.map_eq_append_iff] at spelled
    obtain ⟨own, others, rfl, spelledOwn, -⟩ := spelled
    obtain ⟨token, later, rfl, starts⟩ := tokens_start canonical.1 spelledOwn
    exact Or.inr ⟨by simp, token, later ++ others, rfl, starts⟩

theorem length_le_argumentsInOrder :
    arguments.length ≤ (Expression.argumentsInOrder arguments).length := by
  induction arguments with
  | nil => simp
  | cons argument rest induction =>
    simp only [List.forall_mem_cons] at canonical
    obtain ⟨type, content, more, first, -⟩ := Expression.inOrder_starts canonical.1
    have later := induction canonical.2
    cases rest with
    | nil => simp [Expression.argumentsInOrder, first]
    | cons second rest =>
      rw [Expression.argumentsInOrder, first]
      simp only [List.length_cons, List.isEmpty_cons, Bool.false_eq_true,
        if_false, List.length_append] at later ⊢
      omega

variable (completes : ∀ argument ∈ arguments, Completes argument) {close : Token}
  (spelled : tokens.map Token.reading = Expression.argumentsInOrder arguments)
  (enough : tokens.length ≤ depth) (closes : close.type = .rightParen)

include completes spelled enough closes

theorem parseArguments_inOrder (nonempty : arguments ≠ []) (rounds : Nat)
    (many : arguments.length ≤ rounds) (passed more : List Token) :
    parseArguments (parseWithin (depth + 1)) rounds ⟨passed, tokens ++ close :: more⟩ =
      .ok (arguments, ⟨tokens.reverse ++ passed, close :: more⟩) := by
  induction arguments generalizing tokens rounds passed with
  | nil => contradiction
  | cons argument rest induction =>
    obtain ⟨rounds, rfl⟩ : ∃ fewer, rounds = fewer + 1 := ⟨rounds - 1, by simp at many; omega⟩
    simp only [List.forall_mem_cons] at canonical completes
    rw [Expression.argumentsInOrder, List.map_eq_append_iff] at spelled
    obtain ⟨own, others, rfl, spelledOwn, spelledOthers⟩ := spelled
    simp only [List.length_append] at enough
    have fewOwn : own.length ≤ depth := by omega
    obtain ⟨first, ownRest, own_eq, starts⟩ := tokens_start canonical.1 spelledOwn
    obtain ⟨-, notStar, -, -⟩ := ne_of_startsExpression starts
    have noStar : ∀ later, matchType ⟨passed, own ++ later⟩ .star =
        .ok (false, ⟨passed, own ++ later⟩) := by
      intro later
      simp [own_eq, matchType_cons, notStar]
    cases rest with
    | nil =>
      simp only [List.isEmpty_nil, if_true, List.map_eq_nil_iff] at spelledOthers
      subst spelledOthers
      have ends : (getPrecedence close.type).rank ≤
          Precedence.assignment.rank := by rw [closes]; decide
      have read := completes.1.parse spelledOwn fewOwn
        (root_tighter canonical.1) ends (by simp [closes]) passed more
      simp [parseArguments, noStar, read, matchType_cons, closes]
    | cons second rest =>
      simp only [List.isEmpty_cons, Bool.false_eq_true, if_false,
        List.map_eq_cons_iff] at spelledOthers
      obtain ⟨comma, later, rfl, reading, spelledLater⟩ := spelledOthers
      obtain ⟨isComma, -⟩ := Prod.mk.inj reading
      have ends : (getPrecedence comma.type).rank ≤
          Precedence.assignment.rank := by rw [isComma]; decide
      have read := completes.1.parse spelledOwn fewOwn (root_tighter canonical.1) ends
        (by simp [isComma]) passed (later ++ close :: more)
      simp only [List.length_cons] at enough many
      have continued := induction canonical.2 completes.2 spelledLater (by omega) (by simp)
        rounds (by simp; omega) (comma :: (own.reverse ++ passed))
      simp only [List.append_assoc, List.cons_append]
      simp [parseArguments, noStar, read, matchType_cons, isComma, continued]

theorem parseCallArguments_inOrder (passed more : List Token) :
    parseCallArguments (parseWithin (depth + 1)) ⟨passed, tokens ++ close :: more⟩ =
      .ok (arguments, ⟨tokens.reverse ++ passed, close :: more⟩) := by
  rcases arguments_start canonical spelled with
    ⟨rfl, rfl⟩ | ⟨nonempty, first, rest, tokens_eq, starts⟩
  · simp [parseCallArguments, check_cons, closes]
  obtain ⟨-, -, -, notClose⟩ := ne_of_startsExpression starts
  have lengths := congrArg List.length spelled
  have many := length_le_argumentsInOrder canonical
  rw [List.length_map] at lengths
  have read := parseArguments_inOrder canonical completes spelled enough closes nonempty
    ((tokens ++ close :: more).length + 1) (by rw [List.length_append]; omega) passed more
  have goesOn : check ⟨passed, tokens ++ close :: more⟩ .rightParen = .ok false := by
    simp [tokens_eq, check_cons, notClose]
  simp only [parseCallArguments, goesOn, bind, Except.bind]
  exact read

theorem parseCall_inOrder (name : List UInt8) {isDistinct : Bool} {marks : List Token}
    (marked : marks.map Token.reading = if isDistinct then [(.distinct, .mark)] else [])
    (passed more : List Token) :
    parseCall (parseWithin (depth + 1)) name ⟨passed, marks ++ (tokens ++ close :: more)⟩ =
      .ok (.call name arguments isDistinct,
        ⟨close :: (tokens.reverse ++ (marks.reverse ++ passed)), more⟩) := by
  have distinctRead : matchType ⟨passed, marks ++ (tokens ++ close :: more)⟩ .distinct = .ok
      (isDistinct, ⟨marks.reverse ++ passed, tokens ++ close :: more⟩) := by
    cases isDistinct with
    | true =>
      simp only [if_true, List.map_eq_singleton_iff] at marked
      obtain ⟨token, rfl, reading⟩ := marked
      obtain ⟨isMark, -⟩ := Prod.mk.inj reading
      simp [matchType_cons, isMark]
    | false =>
      simp only [Bool.false_eq_true, if_false, List.map_eq_nil_iff] at marked
      subst marked
      rcases arguments_start canonical spelled with
        ⟨-, rfl⟩ | ⟨-, first, rest, rfl, starts⟩
      · simp [matchType_cons, closes]
      · obtain ⟨-, -, notDistinct, -⟩ := ne_of_startsExpression starts
        simp [matchType_cons, notDistinct]
  have argumentsRead := parseCallArguments_inOrder canonical completes spelled
    enough closes (marks.reverse ++ passed) more
  simp [parseCall, distinctRead, argumentsRead, consume_cons, closes]

end

theorem completes_call {name : List UInt8} {isDistinct : Bool}
    (canonical : ∀ argument ∈ arguments, argument.Canonical)
    (completes : ∀ argument ∈ arguments, Completes argument) :
    Completes (.call name arguments isDistinct) := by
  intro depth precedence passed tokens next more result spelled enough _ _ _ loop
  simp only [Expression.inOrder, List.map_eq_cons_iff, List.map_eq_append_iff] at spelled
  obtain ⟨token, _, rfl, reading, opening, _, rfl, openReading, _, _, rfl,
    ⟨marks, inner, rfl, marked, spelledInner⟩, close, closed, rfl,
    closeReading, closed_eq⟩ := spelled
  obtain rfl := List.map_eq_nil_iff.mp closed_eq
  obtain ⟨isName, content⟩ := Prod.mk.inj reading
  simp only [isName, TokenContent.text.injEq] at content
  obtain ⟨opens, -⟩ := Prod.mk.inj openReading
  obtain ⟨closes, -⟩ := Prod.mk.inj closeReading
  simp only [List.length_cons, List.length_append] at enough
  obtain ⟨depth, rfl⟩ : ∃ less, depth = less + 1 := ⟨depth - 1, by omega⟩
  have fewInner : inner.length ≤ depth := by omega
  have callRead := parseCall_inOrder canonical completes spelledInner fewInner closes name marked
    (opening :: token :: passed) (next :: more)
  have first : parsePrefix (parseWithin (depth + 1)) token ⟨token :: passed, opening :: (marks ++
      (inner ++ close :: next :: more))⟩ = .ok (.call name arguments isDistinct, ⟨close ::
      (inner.reverse ++ (marks.reverse ++ opening :: token :: passed)), next :: more⟩) := by
    simp [parsePrefix, isName, check_cons, opens, advance_cons, callRead, content]
  have real : token.type ≠ .eof := by simp [isName]
  simp only [List.cons_append, List.append_assoc, List.nil_append,
    List.reverse_cons, List.reverse_append, List.reverse_nil] at loop ⊢
  rw [parseWithin_cons real, first]
  exact loop

theorem completes_of_canonical (canonical : tree.Canonical) : Completes tree := by
  induction tree using Expression.induction with
  | literal value => exact completes_literal canonical
  | identifier name => exact completes_identifier name
  | parameter name => exact completes_parameter name
  | unary op operand induction =>
    obtain ⟨operator, single, canonicalOperand⟩ := canonical
    exact completes_unary operator single (induction canonicalOperand)
  | binary left op right leftInduction rightInduction =>
    have whole := canonical
    obtain ⟨-, -, -, canonicalLeft, canonicalRight⟩ := canonical
    exact completes_binary whole (leftInduction canonicalLeft) (rightInduction canonicalRight)
  | call name arguments isDistinct induction =>
    have all := Expression.allCanonical_iff.mp canonical
    exact completes_call all (fun argument mem => induction argument mem (all argument mem))

end Parser

end KlyroDB
