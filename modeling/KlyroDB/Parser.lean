import KlyroDB.Lexer

/-!
# The SQL parser

`sql/parser.cpp` with the syntax trees of `sql/ast/`.  The parser keeps the
tokens before `m_current`, the last one first, and the tokens from it on.
Recursion and loops are given a number of rounds.
-/

namespace KlyroDB

inductive Precedence
  | none | assignment | or | and | equality | comparison | term | factor
  | unary | call | primary
  deriving DecidableEq, Repr

namespace Precedence

def rank (precedence : Precedence) : Nat := precedence.ctorIdx

end Precedence

/-- The expressions of `ast/expressions.hpp` and `ast/literals.hpp`. -/
inductive Expression
  | literal (value : Value)
  | identifier (name : List UInt8)
  | parameter (name : List UInt8)
  | unary (op : TokenType) (operand : Expression)
  | binary (left : Expression) (op : TokenType) (right : Expression)
  | call (name : List UInt8) (arguments : List Expression) (isDistinct : Bool)

structure ResultColumn where
  expr : Expression
  aliasName : List UInt8

structure TableReference where
  tableName : List UInt8
  aliasName : List UInt8

structure SelectStatement where
  projection : List ResultColumn
  fromTables : List TableReference
  whereClause : Option Expression

def decimalValue (digits : List UInt8) : Nat :=
  digits.foldl (fun value digit =>
    value * 10 + (digit.toNat - (Lexer.code '0').toNat)) 0

/-- `std::isspace` in the C locale. -/
def isSpace (c : UInt8) : Bool := c = Lexer.code ' ' || (9 ≤ c && c ≤ 13)

def stoll (text : List UInt8) : Except SqlFailure Int :=
  let unspaced := text.dropWhile isSpace
  let isNegative := unspaced.head? = some (Lexer.code '-')
  let isSigned := isNegative || unspaced.head? = some (Lexer.code '+')
  let body := if isSigned then unspaced.tail else unspaced
  let digits := body.takeWhile Lexer.isDigit
  let magnitude : Int := decimalValue digits
  let value := if isNegative then -magnitude else magnitude
  if digits.isEmpty then .error .noConversion
  else if value < -2 ^ 63 ∨ 2 ^ 63 ≤ value then .error .outOfRange
  else .ok value

structure Parser where
  passed : List Token
  rest : List Token

namespace Parser

/-- The constructor: a lexer error leaves no tokens. -/
def make (sql : List UInt8) : Except SqlFailure Parser :=
  match Lexer.tokenize sql with
  | .ok tokens => .ok ⟨[], tokens⟩
  | .error (.status _) => .ok ⟨[], []⟩
  | .error failure => .error failure

def peek (parser : Parser) : Except SqlFailure Token :=
  match parser.rest with
  | [] => .error .outOfBounds
  | token :: _ => .ok token

def previous (parser : Parser) : Except SqlFailure Token :=
  match parser.passed with
  | [] => .error .outOfBounds
  | token :: _ => .ok token

def isAtEnd (parser : Parser) : Except SqlFailure Bool := do
  let token ← parser.peek
  return token.type = .eof

def check (parser : Parser) (type : TokenType) : Except SqlFailure Bool := do
  if ← parser.isAtEnd then return false
  let token ← parser.peek
  return token.type = type

def step (parser : Parser) : Parser :=
  match parser.rest with
  | [] => parser
  | token :: rest => ⟨token :: parser.passed, rest⟩

def advance (parser : Parser) : Except SqlFailure (Token × Parser) := do
  let next := if ← parser.isAtEnd then parser else parser.step
  let token ← next.previous
  return (token, next)

def matchType (parser : Parser) (type : TokenType) : Except SqlFailure (Bool × Parser) := do
  if ← parser.check type then
    let (_, next) ← parser.advance
    return (true, next)
  return (false, parser)

def consume (parser : Parser) (type : TokenType) (message : String) :
    Except SqlFailure (Token × Parser) := do
  if ← parser.check type then parser.advance
  else
    let token ← parser.peek
    .error (.makeError .invalidArgument token.location message)

def getPrecedence : TokenType → Precedence
  | .or => .or
  | .and => .and
  | .equal | .notEqual | .is | .inKeyword | .like => .equality
  | .less | .lessEqual | .greater | .greaterEqual => .comparison
  | .plus | .minus | .concat => .term
  | .star | .slash | .percent => .factor
  | _ => .none

abbrev ParseExpression :=
  Precedence → Parser → Except SqlFailure (Expression × Parser)

section Recursion

variable (parse : ParseExpression)

def parseArguments : Nat → Parser → Except SqlFailure (List Expression × Parser)
  | 0, _ => .error .outOfRounds
  | rounds + 1, parser => do
      let (star, parser) ← parser.matchType .star
      if star then return ([], parser)
      let (argument, parser) ← parse .assignment parser
      let (more, parser) ← parser.matchType .comma
      if more then
        let (arguments, parser) ← parseArguments rounds parser
        return (argument :: arguments, parser)
      return ([argument], parser)

/-- There are no arguments before a closing parenthesis. -/
def parseCallArguments (parser : Parser) : Except SqlFailure (List Expression × Parser) := do
  if ← parser.check .rightParen then return ([], parser)
  else parseArguments parse (parser.rest.length + 1) parser

def parseCall (name : List UInt8) (parser : Parser) : Except SqlFailure (Expression × Parser) := do
  let (isDistinct, parser) ← parser.matchType .distinct
  let (arguments, parser) ← parseCallArguments parse parser
  let (_, parser) ← parser.consume .rightParen "Expected ')' after arguments"
  return (.call name arguments isDistinct, parser)

def parsePrefix (token : Token) (parser : Parser) : Except SqlFailure (Expression × Parser) :=
  match token.type with
  | .integerLiteral => do
      let value ← stoll token.lexeme
      return (.literal (.integer (Int32.ofInt value)), parser)
  | .stringLiteral => .ok (.literal (.string token.lexeme .text), parser)
  | .true => .ok (.literal (.boolean true), parser)
  | .false => .ok (.literal (.boolean false), parser)
  | .identifier => do
      if ← parser.check .leftParen then
        let (_, parser) ← parser.advance
        parseCall parse token.lexeme parser
      else return (.identifier token.lexeme, parser)
  | .parameter => .ok (.parameter token.lexeme, parser)
  | .minus | .not => do
      let (operand, parser) ← parse .unary parser
      return (.unary token.type operand, parser)
  | _ => .error (.makeError .invalidArgument token.location "Unexpected prefix token")

def parseInfix (token : Token) (left : Expression) (parser : Parser) :
    Except SqlFailure (Expression × Parser) := do
  let (right, parser) ← parse (getPrecedence token.type) parser
  return (.binary left token.type right, parser)

def infixLoop (precedence : Precedence) :
    Nat → Expression → Parser → Except SqlFailure (Expression × Parser)
  | 0, _, _ => .error .outOfRounds
  | rounds + 1, left, parser => do
      let next ← parser.peek
      if precedence.rank < (getPrecedence next.type).rank then
        let (token, parser) ← parser.advance
        let (left, parser) ← parseInfix parse token left parser
        infixLoop precedence rounds left parser
      else return (left, parser)

end Recursion

/-- `parse_expression` with a bound on its depth. -/
def parseWithin : Nat → ParseExpression
  | 0, _, _ => .error .outOfRounds
  | depth + 1, precedence, parser => do
      if ← parser.isAtEnd then
        let token ← parser.peek
        .error (.makeError .invalidArgument token.location "Unexpected EOF in expression")
      else
        let (current, parser) ← parser.advance
        let (left, parser) ← parsePrefix (parseWithin depth) current parser
        infixLoop (parseWithin depth) precedence (parser.rest.length + 1)
          left parser

/-- A call nested in another one starts behind it, so that the depth is at
most the number of tokens left. -/
def parseExpression : ParseExpression := fun precedence parser =>
  parseWithin (parser.rest.length + 1) precedence parser

def parseColumn (parser : Parser) : Except SqlFailure (ResultColumn × Parser) := do
  let (star, parser) ← parser.matchType .star
  if star then return (⟨.identifier (ascii "*"), []⟩, parser)
  let (expr, parser) ← parser.parseExpression .assignment
  let (named, parser) ← parser.matchType .as
  if named then
    let (token, parser) ← parser.consume .identifier "Expected alias after AS"
    return (⟨expr, token.lexeme⟩, parser)
  return (⟨expr, []⟩, parser)

def parseTable (parser : Parser) : Except SqlFailure (TableReference × Parser) := do
  let (table, parser) ← parser.consume .identifier "Expected table name in FROM clause"
  let (named, parser) ← parser.matchType .as
  if named then
    let (token, parser) ← parser.consume .identifier "Expected alias after AS"
    return (⟨table.lexeme, token.lexeme⟩, parser)
  if ← parser.check .identifier then
    let (token, parser) ← parser.advance
    return (⟨table.lexeme, token.lexeme⟩, parser)
  return (⟨table.lexeme, []⟩, parser)

def parseList {Item : Type} (parseItem : Parser → Except SqlFailure (Item × Parser)) : Nat → Parser
    → Except SqlFailure (List Item × Parser)
  | 0, _ => .error .outOfRounds
  | rounds + 1, parser => do
      let (item, parser) ← parseItem parser
      let (more, parser) ← parser.matchType .comma
      if more then
        let (items, parser) ← parseList parseItem rounds parser
        return (item :: items, parser)
      return ([item], parser)

def parseProjection (parser : Parser) : Except SqlFailure (List ResultColumn × Parser) := do
  if ← parser.check .fromKeyword then return ([], parser)
  else parseList parseColumn (parser.rest.length + 1) parser

def parseFrom (parser : Parser) : Except SqlFailure (List TableReference × Parser) := do
  let (hasFrom, parser) ← parser.matchType .fromKeyword
  if hasFrom then parseList parseTable (parser.rest.length + 1) parser
  else return ([], parser)

def parseWhere (parser : Parser) : Except SqlFailure (Option Expression × Parser) := do
  let (hasWhere, parser) ← parser.matchType .whereKeyword
  if hasWhere then
    let (condition, parser) ← parser.parseExpression .assignment
    return (some condition, parser)
  else return (none, parser)

/-- `parse_select`, whose three parts are `parseProjection`, `parseFrom` and
`parseWhere`. -/
def parseSelect (parser : Parser) : Except SqlFailure (SelectStatement × Parser) := do
  let (projection, parser) ← parser.parseProjection
  let (fromTables, parser) ← parser.parseFrom
  let (whereClause, parser) ← parser.parseWhere
  return (⟨projection, fromTables, whereClause⟩, parser)

/-- Without tokens the error is made from the location of `m_tokens[0]`. -/
def parseStatement (parser : Parser) : Except SqlFailure (SelectStatement × Parser) := do
  if parser.passed.isEmpty && parser.rest.isEmpty then
    let token ← parser.peek
    .error (.makeError .invalidArgument token.location "No tokens")
  else
    let (selects, parser) ← parser.matchType .select
    if selects then parser.parseSelect
    else
      let token ← parser.peek
      .error (.makeError .invalidArgument token.location "Unsupported statement type")

def parseSql (sql : List UInt8) : Except SqlFailure (SelectStatement × Parser) := do
  let parser ← make sql
  parser.parseStatement

end Parser

end KlyroDB
