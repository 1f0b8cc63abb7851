import KlyroDB.CoreTypes
import KlyroDB.Values

/-!
# Tokens of the SQL front end

`sql/token_type.hpp`, `sql/token.hpp`, `sql/source_location.hpp` and
`sql/sql_error.cpp`.  A name that Lean reserves carries the word `Keyword`
after it.
-/

namespace KlyroDB

inductive TokenType
  | eof | invalid
  | identifier | quotedIdentifier | integerLiteral | floatLiteral
  | stringLiteral | blobLiteral | parameter
  | null | true | false
  | and | or | not | is | inKeyword | between | like | glob | regexp
  | as | distinct | all
  | select | fromKeyword | whereKeyword | group | byKeyword | having | order
  | limit | offset
  | asc | desc | nulls | first | last
  | join | inner | left | right | full | cross | outer | onKeyword
  | usingKeyword
  | union | intersect | except
  | insert | into | values
  | update | set
  | delete
  | create | alter | drop
  | table | index | view | schema
  | primary | key | unique | references | check | default | constraint
  | begin | commit | rollback
  | returning
  | caseKeyword | when | thenKeyword | elseKeyword | endKeyword
  | cast | existsKeyword
  | count | sum | avg | min | max
  | plus | minus | star | slash | percent
  | equal | notEqual | less | lessEqual | greater | greaterEqual
  | leftParen | rightParen | leftBracket | rightBracket
  | comma | dot | semicolon | colon | doubleColon
  | concat
  deriving DecidableEq, Repr

structure SourceLocation where
  offset : Nat := 0
  line : Nat := 1
  column : Nat := 1
  deriving DecidableEq, Repr

structure Token where
  type : TokenType
  lexeme : List UInt8
  location : SourceLocation
  deriving DecidableEq, Repr

/-- How a call of the lexer or the parser can end without a value: with an
error result, with an access outside its vector or string, or with one of the
exceptions of `std::stoll`.  `outOfRounds` is the model's own: the rounds
given to a loop or to the recursion were used up. -/
inductive SqlFailure
  | status (status : Status)
  | outOfBounds
  | outOfRange
  | noConversion
  | outOfRounds
  deriving DecidableEq, Repr

/-- `SQLError::make_error`, which drops the location and the message. -/
def SqlFailure.makeError (_status : Status) (_location : SourceLocation)
    (_message : String) : SqlFailure :=
  .status .invalidArgument

end KlyroDB
