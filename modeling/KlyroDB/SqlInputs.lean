import KlyroDB.LexerRoundTrip
import KlyroDB.StatementGrammar
import Mathlib.Data.List.TakeWhile

/-!
# Parsing SQL text

How the lexer and the parser end on any text: with a result, with a reported
error, or at an integer that `std::stoll` cannot represent.
-/

namespace KlyroDB

/-- A call returns a result as described or fails in one of the given ways. -/
def Ends {Result : Type} (fails : SqlFailure → Prop) (result : Except SqlFailure Result)
    (returns : Result → Prop) : Prop :=
  match result with
  | .error failure => fails failure
  | .ok found => returns found

section Ends

variable {First Second : Type} {fails : SqlFailure → Prop} {returns : First → Prop}

theorem Ends.ok {found : First} (described : returns found) : Ends fails (.ok found) returns :=
  described

theorem Ends.error {failure : SqlFailure} (failed : fails failure) :
    Ends fails (.error failure) returns :=
  failed

theorem Ends.imp {result : Except SqlFailure First} {weaker : First → Prop}
    (ends : Ends fails result returns) (implies : ∀ found, returns found → weaker found) :
    Ends fails result weaker := by
  cases result with
  | error failure => exact ends
  | ok found => exact implies found ends

theorem Ends.bind {first : Except SqlFailure First} {next : First → Except SqlFailure Second}
    {returnsNext : Second → Prop} (ends : Ends fails first returns)
    (later : ∀ found, returns found → Ends fails (next found) returnsNext) :
    Ends fails (first >>= next) returnsNext := by
  cases first with
  | error failure => exact ends
  | ok found => exact later found ends

theorem Ends.ok_bind {found : First} {next : First → Except SqlFailure Second}
    {returnsNext : Second → Prop} (ends : Ends fails (next found) returnsNext) :
    Ends fails (Except.ok found >>= next) returnsNext :=
  ends

end Ends

namespace Lexer

def IsDecimal (text : List UInt8) : Prop :=
  text ≠ [] ∧ ∀ c ∈ text, isDigit c = true

def DecimalIntegers (token : Token) : Prop :=
  token.type = .integerLiteral → IsDecimal token.lexeme

def Reported (failure : SqlFailure) : Prop := failure = .status .invalidArgument

variable {rounds : Nat} {lexer start : Lexer}

theorem rest_of_peek {c : UInt8} (there : lexer.peek = c) (real : c ≠ 0) :
    ∃ rest, lexer.rest = c :: rest := by
  obtain ⟨_ | ⟨first, rest⟩, loc⟩ := lexer
  · exact absurd there.symm real
  · exact ⟨rest, congrArg (· :: rest) there⟩

theorem rest_of_peekNext {c : UInt8} (there : lexer.peekNext = c) (real : c ≠ 0) :
    ∃ first rest, lexer.rest = first :: c :: rest := by
  obtain ⟨_ | ⟨first, _ | ⟨second, rest⟩⟩, loc⟩ := lexer
  · exact absurd there.symm real
  · exact absurd there.symm real
  · exact ⟨first, rest, congrArg (first :: · :: rest) there⟩

theorem advanceWhile_ends {continues : Lexer → Bool} {test : UInt8 → Prop}
    (there : ∀ lexer, continues lexer = true → ∃ c rest, lexer.rest = c :: rest ∧ test c)
    (enough : lexer.rest.length < rounds) :
    Ends Reported (advanceWhile continues rounds lexer) fun after =>
      ∃ text, lexer.rest = text ++ after.rest ∧
        after.loc.offset = lexer.loc.offset + text.length ∧ (∀ c ∈ text, test c) ∧
        (continues lexer = true → text ≠ []) := by
  induction rounds generalizing lexer with
  | zero => omega
  | succ rounds induction =>
    unfold advanceWhile
    split
    next goesOn =>
      obtain ⟨c, rest, rest_eq, passes⟩ := there lexer goesOn
      obtain ⟨_, loc⟩ := lexer
      subst rest_eq
      simp only [List.length_cons, Nat.add_lt_add_iff_right] at enough
      refine (@induction ⟨rest, loc.past c⟩ enough).imp ?_
      rintro after ⟨text, rest_eq, offset, all, -⟩
      simp only [SourceLocation.past_offset] at rest_eq offset
      exact ⟨c :: text, by simp [rest_eq], by simp only [List.length_cons]; omega,
        by simpa using ⟨passes, all⟩, fun _ => by simp⟩
    next stops => exact Ends.ok ⟨[], rfl, rfl, by simp, fun goesOn => absurd goesOn stops⟩

theorem advanceWhile_shortens {continues : Lexer → Bool}
    (stops : ∀ loc, continues ⟨[], loc⟩ = false) :
    Ends Reported (advanceWhile continues (lexer.rest.length + 1) lexer) fun after =>
      after.rest.length ≤ lexer.rest.length ∧
        (continues lexer = true → after.rest.length < lexer.rest.length) := by
  refine (@advanceWhile_ends _ _ _ (fun _ => True) ?_ (Nat.lt_succ_self _)).imp ?_
  · rintro ⟨_ | ⟨c, rest⟩, loc⟩ goesOn
    · simp [stops] at goesOn
    · exact ⟨c, rest, rfl, trivial⟩
  rintro after ⟨text, rest_eq, -, -, nonempty⟩
  rw [rest_eq, List.length_append]
  refine ⟨Nat.le_add_left _ _, fun goesOn => ?_⟩
  have := List.length_pos_iff.mpr (nonempty goesOn)
  omega

theorem matchChar_ends (expected : UInt8) :
    Ends Reported (lexer.matchChar expected) fun found =>
      found.2.rest.length ≤ lexer.rest.length := by
  obtain ⟨_ | ⟨c, rest⟩, loc⟩ := lexer
  · exact Ends.ok le_rfl
  unfold matchChar
  rw [if_neg (by simp [isAtEnd])]
  split
  · exact Ends.ok le_rfl
  · exact Ends.ok (Nat.le_succ _)

/-! ## Blanks and comments -/

theorem skipBlockComment_ends (enough : lexer.rest.length < rounds) :
    Ends Reported (skipBlockComment rounds lexer) fun after =>
      after.rest.length ≤ lexer.rest.length := by
  induction rounds generalizing lexer with
  | zero => omega
  | succ rounds induction =>
    obtain ⟨_ | ⟨c, rest⟩, loc⟩ := lexer
    · exact Ends.ok le_rfl
    unfold skipBlockComment
    rw [if_neg (by simp [isAtEnd])]
    split
    next closes =>
      obtain ⟨_, rest, ⟨⟩⟩ := rest_of_peekNext closes.2 (by decide)
      exact Ends.ok (by simp; omega)
    · exact (@induction ⟨rest, loc.past c⟩ (by simpa using enough)).imp
        fun after short => Nat.le_succ_of_le short

theorem skipWhitespaceAndComments_ends (enough : lexer.rest.length < rounds) :
    Ends Reported (skipWhitespaceAndComments rounds lexer) fun after =>
      after.rest.length ≤ lexer.rest.length := by
  induction rounds generalizing lexer with
  | zero => omega
  | succ rounds induction =>
    have later : ∀ {next : Lexer}, next.rest.length < lexer.rest.length →
        Ends Reported (skipWhitespaceAndComments rounds next) fun after =>
          after.rest.length ≤ lexer.rest.length := by
      intro next shorter
      exact (induction (by omega)).imp fun after short => by omega
    unfold skipWhitespaceAndComments
    split
    next blank =>
      obtain ⟨_ | ⟨c, rest⟩, loc⟩ := lexer
      · exact absurd (show isBlank 0 = true from blank) (by decide)
      · exact later (Nat.lt_succ_self _)
    split
    next dashes =>
      refine (advanceWhile_shortens (by simp [isAtEnd])).bind ?_
      rintro next ⟨-, shorter⟩
      obtain ⟨rest, begins⟩ := rest_of_peek dashes.1 (by decide)
      exact later (shorter (by simp [dashes.1, isAtEnd, begins]; decide))
    split
    next opens =>
      obtain ⟨_, rest, begins⟩ := rest_of_peekNext opens.2 (by decide)
      obtain ⟨_, loc⟩ := lexer
      subst begins
      refine Ends.ok_bind (Ends.ok_bind ((skipBlockComment_ends (Nat.lt_succ_self _)).bind ?_))
      intro next short
      exact later (by simp only [List.length_cons] at short ⊢; omega)
    · exact Ends.ok le_rfl

/-! ## Tokens -/

/-- A token of the lexer has been read, from a character on. -/
def TokenEnds (length : Nat) (result : Except SqlFailure (Token × Lexer)) : Prop :=
  Ends Reported result fun found =>
    DecimalIntegers found.1 ∧ found.2.rest.length < length

theorem tokenEnds_ok {length : Nat} {token : Token} {after : Lexer}
    (other : token.type ≠ .integerLiteral) (shorter : after.rest.length < length) :
    TokenEnds length (.ok (token, after)) :=
  ⟨fun isInteger => absurd isInteger other, shorter⟩

theorem lookup_other {Key : Type} [BEq Key] [LawfulBEq Key] {table : List (Key × TokenType)}
    {key : Key} {type : TokenType} (found : table.lookup key = some type)
    (others : ∀ entry ∈ table, entry.2 ≠ .integerLiteral) : type ≠ .integerLiteral := by
  obtain ⟨before, later, rfl, -⟩ := List.lookup_eq_some_iff.mp found
  exact others (key, type) (by simp)

theorem skipDigits_ends :
    Ends Reported lexer.skipDigits fun after =>
      ∃ text, lexer.rest = text ++ after.rest ∧
        after.loc.offset = lexer.loc.offset + text.length ∧ (∀ c ∈ text, isDigit c = true) ∧
        (isDigit lexer.peek = true → text ≠ []) := by
  apply advanceWhile_ends _ (Nat.lt_succ_self _)
  intro lexer digit
  obtain ⟨_ | ⟨c, rest⟩, loc⟩ := lexer
  · exact absurd (show isDigit 0 = true from digit) (by decide)
  · exact ⟨c, rest, rfl, digit⟩

theorem scanNumber_ends (digit : isDigit start.peek = true) :
    TokenEnds start.rest.length start.scanNumber := by
  refine skipDigits_ends.bind ?_
  rintro whole ⟨text, rest_eq, offset, all, nonempty⟩
  have some := List.length_pos_iff.mpr (nonempty digit)
  have shorter : whole.rest.length < start.rest.length := by
    rw [rest_eq, List.length_append]
    omega
  split
  next point =>
    obtain ⟨rest, begins⟩ := rest_of_peek point.1 (by decide)
    obtain ⟨_, loc⟩ := whole
    subst begins
    refine Ends.ok_bind (skipDigits_ends.bind ?_)
    rintro after ⟨fraction, fraction_eq, -⟩
    simp only at fraction_eq shorter
    refine tokenEnds_ok (by simp) ?_
    simp only [fraction_eq, List.length_cons, List.length_append] at shorter
    omega
  · refine Ends.ok ⟨fun _ => ?_, shorter⟩
    rw [show start.textUpTo whole = text by simp [textUpTo, offset, rest_eq]]
    exact ⟨nonempty digit, all⟩

theorem scanIdentifierOrKeyword_ends (begins : isAlpha start.peek || start.peek = code '_') :
    TokenEnds start.rest.length start.scanIdentifierOrKeyword := by
  refine (advanceWhile_shortens ?_).bind ?_
  · exact fun _ => show (isAlnum 0 || 0 = code '_') = false by decide
  rintro after ⟨-, goesOn⟩
  have shorter := goesOn (by simp_all [isAlnum]; tauto)
  simp only
  split
  next type found => exact tokenEnds_ok (lookup_other found (by decide)) shorter
  · exact tokenEnds_ok (by simp) shorter

theorem readString_ends {startLoc : SourceLocation} {str : List UInt8}
    (enough : lexer.rest.length < rounds) {length : Nat} (short : lexer.rest.length < length) :
    TokenEnds length (readString startLoc rounds str lexer) := by
  induction rounds generalizing str lexer with
  | zero => omega
  | succ rounds induction =>
    obtain ⟨_ | ⟨c, rest⟩, loc⟩ := lexer
    · exact Ends.error rfl
    simp only [List.length_cons] at enough short
    unfold readString
    rw [if_neg (by simp [isAtEnd])]
    split
    · split
      next doubled =>
        obtain ⟨_, rest, ⟨⟩⟩ := rest_of_peekNext doubled (by decide)
        simp only [List.length_cons] at enough short
        exact @induction ⟨rest, _⟩ _ (by simp only; omega) (by simp only; omega)
      · exact tokenEnds_ok (by simp) (by simp only; omega)
    · exact @induction ⟨rest, _⟩ _ (by simp only; omega) (by simp only; omega)

theorem scanQuotedIdentifier_ends {length : Nat} (short : start.rest.length < length) :
    TokenEnds length start.scanQuotedIdentifier := by
  refine (advanceWhile_shortens (by simp [isAtEnd])).bind ?_
  rintro ⟨_ | ⟨c, rest⟩, loc⟩ ⟨fewer, -⟩
  · exact Ends.error rfl
  · exact tokenEnds_ok (by simp) ((Nat.lt_of_succ_le fewer).trans short)

theorem scanToken_ends (there : lexer.rest ≠ []) :
    TokenEnds lexer.rest.length lexer.scanToken := by
  obtain ⟨_ | ⟨c, rest⟩, loc⟩ := lexer
  · exact absurd rfl there
  have short : ∀ {after : Lexer}, after.rest.length ≤ rest.length →
      after.rest.length < (c :: rest).length :=
    Nat.lt_succ_of_le
  refine Ends.ok_bind ?_
  simp only
  split
  next type found => exact tokenEnds_ok (lookup_other found (by decide)) (short le_rfl)
  split
  · refine (matchChar_ends _).bind ?_
    rintro ⟨_ | _, after⟩ shorter <;> exact tokenEnds_ok (by simp) (short shorter)
  split
  · refine (matchChar_ends _).bind ?_
    rintro ⟨_ | _, after⟩ shorter
    · exact Ends.error rfl
    · exact tokenEnds_ok (by simp) (short shorter)
  split
  · refine (matchChar_ends _).bind ?_
    rintro ⟨_ | _, after⟩ shorter
    · refine (matchChar_ends _).bind ?_
      rintro ⟨_ | _, last⟩ shorterLast <;>
        exact tokenEnds_ok (by simp) (short (shorterLast.trans shorter))
    · exact tokenEnds_ok (by simp) (short shorter)
  split
  · refine (matchChar_ends _).bind ?_
    rintro ⟨_ | _, after⟩ shorter <;> exact tokenEnds_ok (by simp) (short shorter)
  split
  · refine (matchChar_ends _).bind ?_
    rintro ⟨_ | _, after⟩ shorter
    · exact Ends.error rfl
    · exact tokenEnds_ok (by simp) (short shorter)
  split
  · exact readString_ends (Nat.lt_succ_self _) (Nat.lt_succ_self _)
  split
  · exact scanQuotedIdentifier_ends (Nat.lt_succ_self _)
  split
  next digit => exact scanNumber_ends digit
  split
  next begins => exact scanIdentifierOrKeyword_ends begins
  · exact Ends.error rfl

/-- The tokens of a text: integers have decimal lexemes, and the end marker
comes last. -/
structure Lexed (tokens : List Token) : Prop where
  decimal : ∀ token ∈ tokens, DecimalIntegers token
  ended : ∃ last ∈ tokens.getLast?, last.type = .eof

theorem lexed_eof : Lexed [lexer.makeToken .eof []] :=
  ⟨by simp [makeToken, DecimalIntegers], by simp [makeToken]⟩

theorem scanTokens_ends (enough : lexer.rest.length < rounds) :
    Ends Reported (scanTokens rounds lexer) Lexed := by
  induction rounds generalizing lexer with
  | zero => omega
  | succ rounds induction =>
    unfold scanTokens
    split
    · exact Ends.ok lexed_eof
    refine (skipWhitespaceAndComments_ends (Nat.lt_succ_self _)).bind ?_
    intro start short
    split
    · exact Ends.ok lexed_eof
    next there =>
      refine Ends.bind (scanToken_ends (by simpa [isAtEnd] using there)) ?_
      rintro ⟨token, next⟩ ⟨decimal, shorter⟩
      simp only at shorter
      refine (@induction next (by omega)).bind ?_
      rintro tokens ⟨decimals, last, isLast, isEof⟩
      refine Ends.ok ⟨by simpa using ⟨decimal, decimals⟩, last, ?_, isEof⟩
      simp [List.getLast?_cons, Option.mem_def.mp isLast]

/-- Every text is split into tokens or reported. -/
theorem tokenize_ends (source : List UInt8) : Ends Reported (tokenize source) Lexed :=
  scanTokens_ends (Nat.lt_succ_self _)

end Lexer

/-! ## Conversion of integers -/

/-- A decimal lexeme is a number for `std::stoll`, however large. -/
theorem stoll_decimal {text : List UInt8} (decimal : Lexer.IsDecimal text) :
    stoll text =
      if 2 ^ 63 ≤ (decimalValue text : Int) then .error .outOfRange
      else .ok (decimalValue text) := by
  obtain ⟨nonempty, digits⟩ := decimal
  obtain ⟨first, others, rfl⟩ := List.exists_cons_of_ne_nil nonempty
  have digit := digits first (by simp)
  have apart : ∀ number : Fin 256,
      Lexer.isDigit ⟨⟨number⟩⟩ = true → isSpace ⟨⟨number⟩⟩ = false := by decide +kernel
  have notSpace : isSpace first = false := apart first.toFin digit
  have notSign : first ≠ Lexer.code '-' ∧ first ≠ Lexer.code '+' := by
    constructor <;> rintro rfl <;> exact absurd digit (by decide)
  have whole : (first :: others).takeWhile Lexer.isDigit = first :: others :=
    List.takeWhile_eq_self_iff.mpr digits
  have magnitude : (0 : Int) ≤ decimalValue (first :: others) := Int.natCast_nonneg _
  simp only [stoll, List.dropWhile_cons, notSpace, Bool.false_eq_true, if_false, List.head?_cons,
    Option.some.injEq, notSign.1, notSign.2, decide_false, Bool.or_self, whole, List.isEmpty_cons]
  have notLow : ¬(decimalValue (first :: others) : Int) < -2 ^ 63 := by omega
  simp only [notLow, false_or]

/-! ## The parser -/

namespace Parser

attribute [local simp] bind Except.bind pure Except.pure

def LargeInteger (token : Token) : Prop :=
  token.type = .integerLiteral ∧ 2 ^ 63 ≤ decimalValue token.lexeme

/-- An error is reported, or `std::stoll` throws at one of the tokens. -/
def Fails (all : List Token) (failure : SqlFailure) : Prop :=
  failure = .status .invalidArgument ∨ failure = .outOfRange ∧ ∃ token ∈ all, LargeInteger token

/-- The parser stands before at most `limit` of the tokens. -/
structure Ready (all : List Token) (limit : Nat) (parser : Parser) : Prop where
  suffix : parser.rest <:+ all
  nonempty : parser.rest ≠ []
  short : parser.rest.length ≤ limit

def ParserEnds {Item : Type} (all : List Token) (limit : Nat)
    (result : Except SqlFailure (Item × Parser)) : Prop :=
  Ends (Fails all) result fun found => Ready all limit found.2

section Outcomes

variable {all : List Token} {limit : Nat} {parser : Parser}

theorem Ready.pos (ready : Ready all limit parser) : ∃ fewer, limit = fewer + 1 := by
  have some := List.length_pos_iff.mpr ready.nonempty
  have short := ready.short
  exact ⟨limit - 1, by omega⟩

theorem Ready.tight (ready : Ready all limit parser) : Ready all parser.rest.length parser :=
  ⟨ready.suffix, ready.nonempty, le_rfl⟩

theorem ParserEnds.mono {Item : Type} {fewer : Nat} {result : Except SqlFailure (Item × Parser)}
    (ends : ParserEnds all fewer result) (le : fewer ≤ limit) : ParserEnds all limit result :=
  Ends.imp ends fun _ ready => ⟨ready.suffix, ready.nonempty, ready.short.trans le⟩

/-- The last step of a function only builds its result. -/
theorem ParserEnds.finish {Item Other : Type} {first : Except SqlFailure (Item × Parser)}
    {next : Item × Parser → Except SqlFailure (Other × Parser)} (ends : ParserEnds all limit first)
    (builds : ∀ item after, ∃ other, next (item, after) = .ok (other, after)) :
    ParserEnds all (limit + 1) (first >>= next) := by
  refine Ends.bind (ends.mono (Nat.le_succ _)) ?_
  rintro ⟨item, after⟩ ready
  obtain ⟨other, built⟩ := builds item after
  rw [built]
  exact Ends.ok ready

theorem Ready.head (ready : Ready all limit parser) :
    ∃ passed token rest, parser = ⟨passed, token :: rest⟩ := by
  obtain ⟨passed, _ | ⟨token, rest⟩⟩ := parser
  · exact absurd rfl ready.nonempty
  · exact ⟨passed, token, rest, rfl⟩

variable (lexed : Lexer.Lexed all)
include lexed

theorem Ready.next {passed passed' rest : List Token} {token : Token}
    (ready : Ready all (limit + 1) ⟨passed, token :: rest⟩) (real : token.type ≠ .eof) :
    Ready all limit ⟨passed', rest⟩ := by
  obtain ⟨⟨before, rfl⟩, -, short⟩ := ready
  refine ⟨⟨before ++ [token], by simp⟩, ?_, by simpa using short⟩
  rintro rfl
  obtain ⟨last, isLast, isEof⟩ := lexed.ended
  simp only [List.getLast?_append, List.getLast?_singleton, Option.some_or,
    Option.mem_some] at isLast
  exact real (isLast ▸ isEof)

variable {type : TokenType} (real : type ≠ .eof)
include real

theorem matchType_ends (ready : Ready all limit parser) :
    ParserEnds all limit (parser.matchType type) := by
  obtain ⟨limit, rfl⟩ := ready.pos
  obtain ⟨passed, token, rest, rfl⟩ := ready.head
  rw [matchType_cons _ _ _ real]
  split
  next same =>
    have next : Ready all limit ⟨token :: passed, rest⟩ := ready.next lexed (same ▸ real)
    exact Ends.ok ⟨next.suffix, next.nonempty, Nat.le_succ_of_le next.short⟩
  · exact Ends.ok ready

theorem consume_ends (ready : Ready all (limit + 1) parser) (message : String) :
    ParserEnds all limit (parser.consume type message) := by
  obtain ⟨passed, token, rest, rfl⟩ := ready.head
  rw [consume_cons _ _ _ real]
  split
  next same => exact Ends.ok (ready.next lexed (same ▸ real))
  · exact Ends.error (.inl rfl)

end Outcomes

/-- What `parse_expression` does before at most `depth` tokens. -/
def Parses (all : List Token) (parse : ParseExpression) (depth : Nat) : Prop :=
  ∀ {limit : Nat} {parser : Parser} (precedence : Precedence), Ready all (limit + 1) parser →
    limit < depth → ParserEnds all limit (parse precedence parser)

section Functions

variable {all : List Token} (lexed : Lexer.Lexed all) {parse : ParseExpression} {depth limit : Nat}
  (parses : Parses all parse depth) {parser : Parser} (ready : Ready all limit parser)
  (few : limit ≤ depth)
include lexed parses ready few

theorem parseArguments_ends {rounds : Nat} (enough : limit ≤ rounds) :
    ParserEnds all limit (parseArguments parse rounds parser) := by
  induction rounds generalizing parser limit with
  | zero =>
    obtain ⟨_, rfl⟩ := ready.pos
    omega
  | succ rounds induction =>
    refine Ends.bind (matchType_ends lexed (by decide) ready) ?_
    rintro ⟨_ | _, after⟩ ready
    · obtain ⟨limit, rfl⟩ := ready.pos
      refine Ends.bind (parses .assignment ready few) ?_
      rintro ⟨argument, next⟩ ready
      refine Ends.bind (matchType_ends lexed (by decide) ready) ?_
      rintro ⟨_ | _, last⟩ ready
      · exact ParserEnds.mono (Ends.ok ready) (Nat.le_succ _)
      · exact ParserEnds.finish (induction ready (by omega) (by omega)) fun _ _ => ⟨_, rfl⟩
    · exact Ends.ok ready

theorem parseCallArguments_ends : ParserEnds all limit (parseCallArguments parse parser) := by
  have arguments := (parseArguments_ends lexed parses ready.tight (ready.short.trans few)
    (Nat.le_succ _)).mono ready.short
  obtain ⟨passed, token, rest, rfl⟩ := ready.head
  rw [parseCallArguments, check_cons _ _ _ (by decide)]
  by_cases closes : token.type = .rightParen
  · rw [closes]
    exact Ends.ok ready
  · rw [decide_eq_false closes]
    exact arguments

theorem parseCall_ends (name : List UInt8) :
    ParserEnds all limit (parseCall parse name parser) := by
  refine Ends.bind (matchType_ends lexed (by decide) ready) ?_
  rintro ⟨distinct, parser⟩ ready
  refine Ends.bind (parseCallArguments_ends lexed parses ready few) ?_
  rintro ⟨arguments, parser⟩ ready
  obtain ⟨limit, rfl⟩ := ready.pos
  exact ParserEnds.finish (consume_ends lexed (by decide) ready _) fun _ _ => ⟨_, rfl⟩

theorem parsePrefix_ends {token : Token} (member : token ∈ all) :
    ParserEnds all limit (parsePrefix parse token parser) := by
  obtain ⟨limit, rfl⟩ := ready.pos
  have unary : ParserEnds all (limit + 1) (parse .unary parser >>= fun found =>
      .ok (Expression.unary token.type found.1, found.2)) :=
    (parses .unary ready few).finish fun _ _ => ⟨_, rfl⟩
  unfold parsePrefix
  split
  next isInteger =>
    rw [stoll_decimal (lexed.decimal token member isInteger)]
    split
    next large => exact Ends.error (.inr ⟨rfl, token, member, isInteger, by exact_mod_cast large⟩)
    · exact Ends.ok ready
  all_goals try first | exact Ends.ok ready | exact unary | exact Ends.error (Or.inl rfl)
  next =>
    obtain ⟨passed, next, rest, rfl⟩ := ready.head
    rw [check_cons _ _ _ (by decide)]
    by_cases opens : next.type = .leftParen
    · have real : next.type ≠ .eof := by simp [opens]
      rw [decide_eq_true opens, advance_cons _ _ real]
      exact (parseCall_ends lexed parses (ready.next lexed real) (by omega) _).mono (Nat.le_succ _)
    · rw [decide_eq_false opens]
      exact Ends.ok ready

theorem infixLoop_ends {precedence : Precedence} {rounds : Nat} (enough : limit ≤ rounds)
    (left : Expression) : ParserEnds all limit (infixLoop parse precedence rounds left parser) := by
  induction rounds generalizing parser limit left with
  | zero =>
    obtain ⟨_, rfl⟩ := ready.pos
    omega
  | succ rounds induction =>
    obtain ⟨limit, rfl⟩ := ready.pos
    obtain ⟨passed, next, rest, rfl⟩ := ready.head
    by_cases binds : precedence.rank < (getPrecedence next.type).rank
    · rw [infixLoop_of_bind binds]
      have real : next.type ≠ .eof := by
        intro eof
        rw [eof] at binds
        exact absurd binds (Nat.not_lt_zero _)
      have second : Ready all limit ⟨next :: passed, rest⟩ := ready.next lexed real
      obtain ⟨limit, rfl⟩ := second.pos
      refine Ends.bind (parses _ second (by omega)) ?_
      rintro ⟨right, parser⟩ ready
      exact (induction ready (by omega) (by omega) _).mono (by omega)
    · rw [infixLoop_of_stop (Nat.not_lt.mp binds)]
      exact Ends.ok ready

end Functions

section Statements

variable {all : List Token} (lexed : Lexer.Lexed all)
include lexed

theorem parses_parseWithin (depth : Nat) : Parses all (parseWithin depth) depth := by
  induction depth with
  | zero =>
    intro limit parser precedence ready few
    omega
  | succ depth parses =>
    intro limit parser precedence ready few
    obtain ⟨passed, token, rest, rfl⟩ := ready.head
    by_cases real : token.type = .eof
    · simp only [parseWithin, isAtEnd_cons, real, peek_cons, bind, Except.bind]
      exact Ends.error (.inl rfl)
    rw [parseWithin_cons real]
    refine Ends.bind (parsePrefix_ends lexed parses (ready.next lexed real) (by omega)
      (ready.suffix.subset (by simp))) ?_
    rintro ⟨left, parser⟩ ready
    exact (infixLoop_ends lexed parses ready.tight (ready.short.trans (by omega)) (Nat.le_succ _)
      left).mono ready.short

variable {limit : Nat} {parser : Parser}

theorem parseExpression_ends (precedence : Precedence) (ready : Ready all (limit + 1) parser) :
    ParserEnds all limit (parser.parseExpression precedence) := by
  obtain ⟨fewer, length⟩ := ready.tight.pos
  have own : Ready all (fewer + 1) parser := length ▸ ready.tight
  have short := ready.short
  exact (parses_parseWithin lexed _ precedence own (by omega)).mono (by omega)

theorem parseColumn_ends (ready : Ready all (limit + 1) parser) :
    ParserEnds all limit parser.parseColumn := by
  obtain ⟨passed, token, rest, rfl⟩ := ready.head
  rw [parseColumn, matchType_cons _ _ _ (by decide)]
  split
  next isStar => exact Ends.ok (ready.next lexed (by simp [isStar]))
  refine Ends.ok_bind (Ends.bind (parseExpression_ends lexed .assignment ready) ?_)
  rintro ⟨expr, parser⟩ ready
  refine Ends.bind (matchType_ends lexed (by decide) ready) ?_
  rintro ⟨_ | _, parser⟩ ready
  · exact Ends.ok ready
  obtain ⟨limit, rfl⟩ := ready.pos
  exact ParserEnds.finish (consume_ends lexed (by decide) ready _) fun _ _ => ⟨_, rfl⟩

theorem parseTable_ends (ready : Ready all (limit + 1) parser) :
    ParserEnds all limit parser.parseTable := by
  refine Ends.bind (consume_ends lexed (by decide) ready _) ?_
  rintro ⟨table, parser⟩ ready
  refine Ends.bind (matchType_ends lexed (by decide) ready) ?_
  rintro ⟨_ | _, parser⟩ ready
  all_goals obtain ⟨limit, rfl⟩ := ready.pos
  · obtain ⟨passed, token, rest, rfl⟩ := ready.head
    simp only [check_cons _ _ _ (show TokenType.identifier ≠ .eof by decide)]
    by_cases named : token.type = .identifier
    · have real : token.type ≠ .eof := by simp [named]
      rw [decide_eq_true named]
      simp only [advance_cons _ _ real]
      exact ParserEnds.mono (Ends.ok (ready.next lexed real)) (Nat.le_succ _)
    · rw [decide_eq_false named]
      exact Ends.ok ready
  · exact ParserEnds.finish (consume_ends lexed (by decide) ready _) fun _ _ => ⟨_, rfl⟩

section Lists

variable {Item : Type} {parseItem : Parser → Except SqlFailure (Item × Parser)}
  (ends : ∀ limit parser, Ready all (limit + 1) parser → ParserEnds all limit (parseItem parser))
include ends

theorem parseList_ends (ready : Ready all limit parser) {rounds : Nat} (enough : limit ≤ rounds) :
    ParserEnds all limit (parseList parseItem rounds parser) := by
  induction rounds generalizing limit parser with
  | zero =>
    obtain ⟨_, rfl⟩ := ready.pos
    omega
  | succ rounds induction =>
    obtain ⟨limit, rfl⟩ := ready.pos
    refine Ends.bind (ends limit parser ready) ?_
    rintro ⟨item, parser⟩ ready
    refine Ends.bind (matchType_ends lexed (by decide) ready) ?_
    rintro ⟨_ | _, parser⟩ ready
    · exact ParserEnds.mono (Ends.ok ready) (Nat.le_succ _)
    · exact ParserEnds.finish (induction ready (by omega)) fun _ _ => ⟨_, rfl⟩

theorem parseItems_ends (ready : Ready all limit parser) :
    ParserEnds all limit (parseList parseItem (parser.rest.length + 1) parser) :=
  (parseList_ends lexed ends ready.tight (Nat.le_succ _)).mono ready.short

end Lists

theorem parseProjection_ends (ready : Ready all limit parser) :
    ParserEnds all limit parser.parseProjection := by
  have items := parseItems_ends lexed (fun _ _ => parseColumn_ends lexed) ready
  obtain ⟨passed, token, rest, rfl⟩ := ready.head
  rw [parseProjection, check_cons _ _ _ (by decide)]
  by_cases isFrom : token.type = .fromKeyword
  · rw [decide_eq_true isFrom]
    exact Ends.ok ready
  · rw [decide_eq_false isFrom]
    exact items

theorem parseFrom_ends (ready : Ready all limit parser) :
    ParserEnds all limit parser.parseFrom := by
  refine Ends.bind (matchType_ends lexed (by decide) ready) ?_
  rintro ⟨_ | _, parser⟩ ready
  · exact Ends.ok ready
  · exact parseItems_ends lexed (fun _ _ => parseTable_ends lexed) ready

theorem parseWhere_ends (ready : Ready all limit parser) :
    ParserEnds all limit parser.parseWhere := by
  refine Ends.bind (matchType_ends lexed (by decide) ready) ?_
  rintro ⟨_ | _, parser⟩ ready
  · exact Ends.ok ready
  obtain ⟨limit, rfl⟩ := ready.pos
  exact ParserEnds.finish (parseExpression_ends lexed .assignment ready) fun _ _ => ⟨_, rfl⟩

theorem parseStatement_ends (ready : Ready all limit parser) :
    ParserEnds all limit parser.parseStatement := by
  unfold parseStatement
  rw [if_neg (by simp [ready.nonempty])]
  refine Ends.bind (matchType_ends lexed (by decide) ready) ?_
  rintro ⟨_ | _, parser⟩ ready
  · obtain ⟨passed, token, rest, rfl⟩ := ready.head
    exact Ends.error (.inl rfl)
  refine Ends.bind (parseProjection_ends lexed ready) ?_
  rintro ⟨projection, parser⟩ ready
  refine Ends.bind (parseFrom_ends lexed ready) ?_
  rintro ⟨fromTables, parser⟩ ready
  refine Ends.bind (parseWhere_ends lexed ready) ?_
  rintro ⟨condition, parser⟩ ready
  exact Ends.ok ready

end Statements

theorem parseSql_of_tokens {sql : List UInt8} {tokens : List Token}
    (scanned : Lexer.tokenize sql = .ok tokens) : parseSql sql = parseStatement ⟨[], tokens⟩ := by
  simp [parseSql, make, scanned]

/-- An integer literal stands for the number that is written, or an error is
reported, exactly if the number is below `2 ^ 31`. -/
theorem integer_literal_exact_iff (parse : ParseExpression) (digits : Lexer.Digits)
    (location : SourceLocation) (parser : Parser) :
    ((∃ number : Int32,
      parsePrefix parse ⟨.integerLiteral, digits.text, location⟩ parser =
        .ok (.literal (.integer number), parser) ∧
      number.toInt = decimalValue digits.text) ∨
    ∃ status, parsePrefix parse ⟨.integerLiteral, digits.text, location⟩ parser =
      .error (.status status)) ↔
    decimalValue digits.text < 2 ^ 31 := by
  have decimal : Lexer.IsDecimal digits.text := ⟨List.cons_ne_nil _ _, digits.all_digits⟩
  simp only [parsePrefix, stoll_decimal decimal]
  constructor
  · rintro (⟨number, -, same⟩ | ⟨status, reported⟩)
    · have bound := number.toInt_lt
      omega
    · split at reported <;> cases reported
  · intro small
    rw [if_neg (by omega)]
    exact .inl ⟨_, rfl, Int32.toInt_ofInt_of_le (by omega) (by omega)⟩

theorem integer_literal_wraps :
    parseExpression .assignment ⟨[],
      [⟨.integerLiteral, ascii "2147483648", {}⟩, ⟨.eof, [], {}⟩]⟩ =
      .ok (.literal (.integer (-2147483648)),
        ⟨[⟨.integerLiteral, ascii "2147483648", {}⟩], [⟨.eof, [], {}⟩]⟩) :=
  rfl

/-- The text of a canonical tree, with a blank before each token, is parsed as
that tree, up to the end marker. -/
theorem parse_rendered {tree : Expression} (canonical : tree.Canonical)
    (sources : List Lexer.SourceToken)
    (spelled : sources.map (fun source => Token.reading ⟨source.type, source.lexeme, {}⟩) =
      tree.inOrder) :
    ∃ parser after, make (Lexer.renderRest sources) = .ok parser ∧
      parser.parseExpression .assignment = .ok (tree, after) ∧
      after.rest.map Token.type = [.eof] := by
  have scanned : (Lexer.tokenize (Lexer.renderRest sources)).map Lexer.contents = _ :=
    Lexer.scanTokens_renderRest sources _ {}
      (Nat.lt_succ_of_le (Lexer.length_le_renderRest sources))
  cases found : Lexer.tokenize (Lexer.renderRest sources) with
  | error failure =>
    rw [found] at scanned
    cases scanned
  | ok all =>
    rw [found] at scanned
    obtain ⟨tokens, _, rfl, read, ended⟩ := List.map_eq_append_iff.mp (Except.ok.inj scanned)
    obtain ⟨eof, rfl, isEof⟩ := List.map_eq_singleton_iff.mp ended
    have type : eof.type = .eof := congrArg Prod.fst isEof
    have readings := congrArg (List.map fun pair => Token.reading ⟨pair.1, pair.2, {}⟩) read
    rw [List.map_map, List.map_map] at readings
    refine ⟨_, ⟨tokens.reverse ++ [], [eof]⟩, by rw [make, found], ?_, by simp [type]⟩
    apply (completes_of_canonical canonical).parse (readings.trans spelled) _
      (root_tighter canonical)
    · rw [type]
      decide
    · simp [type]
    · simp

theorem parse_rendered_not :
    ∃ parser after, make (ascii " NOT TRUE") = .ok parser ∧
      parser.parseExpression .assignment = .ok (.unary .not (.literal (.boolean true)), after) ∧
      after.rest.map Token.type = [.eof] :=
  @parse_rendered (.unary .not (.literal (.boolean true))) ⟨Or.inr rfl, rfl, trivial⟩
    [.keyword (ascii "NOT", .not) (by decide), .keyword (ascii "TRUE", .true) (by decide)] rfl

end Parser

end KlyroDB
