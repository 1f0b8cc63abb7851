import KlyroDB.Tokens

/-!
# The SQL lexer

`sql/lexer.cpp`.  The lexer keeps the part of the source from `m_current` on;
`m_current` itself is the offset of the location.  Every loop is given a number
of rounds, and reading past the end of the source fails.  Characters are
classified as in the C locale.
-/

namespace KlyroDB

namespace Lexer

def code (letter : Char) : UInt8 := UInt8.ofNat letter.toNat

def newline : UInt8 := 10

def quote : UInt8 := 39

def doubleQuote : UInt8 := 34

def isDigit (c : UInt8) : Bool := code '0' ≤ c && c ≤ code '9'

def isAlpha (c : UInt8) : Bool :=
  (code 'a' ≤ c && c ≤ code 'z') || (code 'A' ≤ c && c ≤ code 'Z')

def isAlnum (c : UInt8) : Bool := isAlpha c || isDigit c

def toUpper (text : List UInt8) : List UInt8 :=
  text.map fun c =>
    if code 'a' ≤ c ∧ c ≤ code 'z' then c - code 'a' + code 'A' else c

def keywords : List (List UInt8 × TokenType) :=
  [(ascii "SELECT", .select), (ascii "FROM", .fromKeyword), (ascii "WHERE", .whereKeyword),
    (ascii "INSERT", .insert), (ascii "INTO", .into),
    (ascii "VALUES", .values),
    (ascii "UPDATE", .update), (ascii "SET", .set),
    (ascii "DELETE", .delete),
    (ascii "CREATE", .create), (ascii "ALTER", .alter), (ascii "DROP", .drop),
    (ascii "TABLE", .table), (ascii "INDEX", .index),
    (ascii "SCHEMA", .schema),
    (ascii "PRIMARY", .primary), (ascii "KEY", .key),
    (ascii "UNIQUE", .unique),
    (ascii "NULL", .null), (ascii "TRUE", .true), (ascii "FALSE", .false),
    (ascii "AND", .and), (ascii "OR", .or), (ascii "NOT", .not),
    (ascii "IS", .is), (ascii "IN", .inKeyword),
    (ascii "BETWEEN", .between),
    (ascii "INNER", .inner), (ascii "LEFT", .left), (ascii "JOIN", .join),
    (ascii "ON", .onKeyword),
    (ascii "BY", .byKeyword), (ascii "ORDER", .order),
    (ascii "GROUP", .group),
    (ascii "ASC", .asc), (ascii "DESC", .desc), (ascii "LIMIT", .limit),
    (ascii "AS", .as)]

end Lexer

structure Lexer where
  rest : List UInt8
  loc : SourceLocation
  deriving DecidableEq, Repr

def SourceLocation.past (loc : SourceLocation) (c : UInt8) : SourceLocation :=
  if c = Lexer.newline then ⟨loc.offset + 1, loc.line + 1, 1⟩
  else ⟨loc.offset + 1, loc.line, loc.column + 1⟩

namespace Lexer

def make (source : List UInt8) : Lexer := ⟨source, {}⟩

def isAtEnd (lexer : Lexer) : Bool := lexer.rest.isEmpty

def advance (lexer : Lexer) : Except SqlFailure (UInt8 × Lexer) :=
  match lexer.rest with
  | [] => .error .outOfBounds
  | c :: rest => .ok (c, ⟨rest, lexer.loc.past c⟩)

def peek (lexer : Lexer) : UInt8 :=
  match lexer.rest with
  | [] => 0
  | c :: _ => c

def peekNext (lexer : Lexer) : UInt8 :=
  match lexer.rest with
  | _ :: c :: _ => c
  | _ => 0

def matchChar (lexer : Lexer) (expected : UInt8) : Except SqlFailure (Bool × Lexer) :=
  if lexer.isAtEnd then .ok (false, lexer)
  else if lexer.peek ≠ expected then .ok (false, lexer)
  else do
    let (_, next) ← lexer.advance
    return (true, next)

def advanceWhile (continues : Lexer → Bool) : Nat → Lexer → Except SqlFailure Lexer
  | 0, _ => .error .outOfRounds
  | rounds + 1, lexer =>
      if continues lexer then do
        let (_, next) ← lexer.advance
        advanceWhile continues rounds next
      else .ok lexer

def roundsLeft (lexer : Lexer) : Nat := lexer.rest.length + 1

def skipLineComment (lexer : Lexer) : Except SqlFailure Lexer :=
  lexer.advanceWhile (fun lexer => lexer.peek != newline && !lexer.isAtEnd) lexer.roundsLeft

def skipBlockComment : Nat → Lexer → Except SqlFailure Lexer
  | 0, _ => .error .outOfRounds
  | rounds + 1, lexer =>
      if lexer.isAtEnd then .ok lexer
      else if lexer.peek = code '*' ∧ lexer.peekNext = code '/' then do
        let (_, inside) ← lexer.advance
        let (_, next) ← inside.advance
        return next
      else do
        let (_, next) ← lexer.advance
        skipBlockComment rounds next

/-- Space, `\r`, `\t` and `\n`. -/
def isBlank (c : UInt8) : Bool :=
  c = code ' ' || c = 13 || c = 9 || c = newline

def skipWhitespaceAndComments : Nat → Lexer → Except SqlFailure Lexer
  | 0, _ => .error .outOfRounds
  | rounds + 1, lexer =>
      if isBlank lexer.peek then do
        let (_, next) ← lexer.advance
        skipWhitespaceAndComments rounds next
      else if lexer.peek = code '-' ∧ lexer.peekNext = code '-' then do
        let next ← lexer.skipLineComment
        skipWhitespaceAndComments rounds next
      else if lexer.peek = code '/' ∧ lexer.peekNext = code '*' then do
        let (_, inside) ← lexer.advance
        let (_, first) ← inside.advance
        let next ← first.skipBlockComment first.roundsLeft
        skipWhitespaceAndComments rounds next
      else .ok lexer

def makeToken (lexer : Lexer) (type : TokenType) (lexeme : List UInt8) : Token :=
  ⟨type, lexeme, lexer.loc⟩

def textUpTo (start after : Lexer) : List UInt8 :=
  start.rest.take (after.loc.offset - start.loc.offset)

def scanIdentifierOrKeyword (start : Lexer) : Except SqlFailure (Token × Lexer) := do
  let after ← start.advanceWhile (fun lexer => isAlnum lexer.peek || lexer.peek = code '_')
    start.roundsLeft
  let text := start.textUpTo after
  match keywords.lookup (toUpper text) with
  | some type => return (⟨type, toUpper text, start.loc⟩, after)
  | none => return (⟨.identifier, text, start.loc⟩, after)

def readString (startLoc : SourceLocation) :
    Nat → List UInt8 → Lexer → Except SqlFailure (Token × Lexer)
  | 0, _, _ => .error .outOfRounds
  | rounds + 1, str, lexer =>
      if lexer.isAtEnd then
        .error (.makeError .invalidArgument startLoc "Unterminated string literal")
      else if lexer.peek = quote then
        if lexer.peekNext = quote then do
          let (_, second) ← lexer.advance
          let (_, next) ← second.advance
          readString startLoc rounds (str ++ [quote]) next
        else do
          let (_, next) ← lexer.advance
          return (⟨.stringLiteral, str, startLoc⟩, next)
      else do
        let (c, next) ← lexer.advance
        readString startLoc rounds (str ++ [c]) next

def scanStringLiteral (lexer : Lexer) : Except SqlFailure (Token × Lexer) :=
  readString lexer.loc lexer.roundsLeft [] lexer

def scanQuotedIdentifier (start : Lexer) : Except SqlFailure (Token × Lexer) := do
  let after ← start.advanceWhile
    (fun lexer => !lexer.isAtEnd && lexer.peek != doubleQuote) start.roundsLeft
  if after.isAtEnd then
    .error (.makeError .invalidArgument start.loc "Unterminated quoted identifier")
  else do
    let (_, next) ← after.advance
    return (⟨.quotedIdentifier, start.textUpTo after, start.loc⟩, next)

def skipDigits (lexer : Lexer) : Except SqlFailure Lexer :=
  lexer.advanceWhile (fun lexer => isDigit lexer.peek) lexer.roundsLeft

def scanNumber (start : Lexer) : Except SqlFailure (Token × Lexer) := do
  let whole ← start.skipDigits
  if whole.peek = code '.' ∧ isDigit whole.peekNext then do
    let (_, fraction) ← whole.advance
    let after ← fraction.skipDigits
    return (⟨.floatLiteral, start.textUpTo after, start.loc⟩, after)
  else
    return (⟨.integerLiteral, start.textUpTo whole, start.loc⟩, whole)

/-- `m_current--; m_loc.column--; m_loc.offset--` after reading `c`. -/
def stepBack (lexer : Lexer) (c : UInt8) : Lexer :=
  ⟨c :: lexer.rest, { lexer.loc with
    offset := lexer.loc.offset - 1, column := lexer.loc.column - 1 }⟩

def punctuation : List (UInt8 × TokenType) :=
  [(code '(', .leftParen), (code ')', .rightParen), (code ',', .comma),
    (code '.', .dot), (code ';', .semicolon), (code '+', .plus),
    (code '-', .minus), (code '*', .star), (code '/', .slash)]

def scanToken (lexer : Lexer) : Except SqlFailure (Token × Lexer) := do
  let (c, next) ← lexer.advance
  let startLoc := next.loc
  match punctuation.lookup c with
  | some type => return (⟨type, [c], startLoc⟩, next)
  | none =>
    if c = code '=' then do
      let (doubled, after) ← next.matchChar (code '=')
      if doubled then return (⟨.equal, ascii "==", startLoc⟩, after)
      return (⟨.equal, ascii "=", startLoc⟩, after)
    else if c = code '!' then do
      let (matched, after) ← next.matchChar (code '=')
      if matched then return (⟨.notEqual, ascii "!=", startLoc⟩, after)
      .error (.makeError .invalidArgument startLoc "Unexpected character '!'")
    else if c = code '<' then do
      let (orEqual, after) ← next.matchChar (code '=')
      if orEqual then return (⟨.lessEqual, ascii "<=", startLoc⟩, after)
      let (orGreater, after) ← after.matchChar (code '>')
      if orGreater then return (⟨.notEqual, ascii "<>", startLoc⟩, after)
      return (⟨.less, ascii "<", startLoc⟩, after)
    else if c = code '>' then do
      let (orEqual, after) ← next.matchChar (code '=')
      if orEqual then return (⟨.greaterEqual, ascii ">=", startLoc⟩, after)
      return (⟨.greater, ascii ">", startLoc⟩, after)
    else if c = code '|' then do
      let (doubled, after) ← next.matchChar (code '|')
      if doubled then return (⟨.concat, ascii "||", startLoc⟩, after)
      .error (.makeError .invalidArgument startLoc "Unexpected character '|'")
    else if c = quote then next.scanStringLiteral
    else if c = doubleQuote then next.scanQuotedIdentifier
    else if isDigit c then (next.stepBack c).scanNumber
    else if isAlpha c || c = code '_' then
      (next.stepBack c).scanIdentifierOrKeyword
    else
      .error (.makeError .invalidArgument startLoc "Unexpected character")

def scanTokens : Nat → Lexer → Except SqlFailure (List Token)
  | 0, _ => .error .outOfRounds
  | rounds + 1, lexer =>
      if lexer.isAtEnd then .ok [lexer.makeToken .eof []]
      else do
        let start ← lexer.skipWhitespaceAndComments lexer.roundsLeft
        if start.isAtEnd then .ok [start.makeToken .eof []]
        else do
          let (token, next) ← start.scanToken
          let tokens ← scanTokens rounds next
          return token :: tokens

def tokenize (source : List UInt8) : Except SqlFailure (List Token) :=
  scanTokens (make source).roundsLeft (make source)

end Lexer

end KlyroDB
