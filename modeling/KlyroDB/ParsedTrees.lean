import KlyroDB.ExpressionParsing

/-!
# The trees that the expression parser returns

What each function of the parser has read when it returns a tree, and that the
tree is the canonical one of these tokens.
-/

namespace KlyroDB

open Token (reading)
open Expression (argumentsInOrder inOrder)

namespace Parser

theorem bind_eq_ok {Failure First Second : Type}
    {first : Except Failure First} {next : First → Except Failure Second} {result : Second} :
    first >>= next = .ok result ↔ ∃ found, first = .ok found ∧ next found = .ok result := by
  cases first <;> simp [bind, Except.bind]

structure Reads (start after : Parser) (read : List Token) : Prop where
  rest_eq : start.rest = read ++ after.rest
  passed_eq : after.passed = read.reverse ++ start.passed

theorem Reads.refl (parser : Parser) : Reads parser parser [] := ⟨rfl, rfl⟩

theorem Reads.trans {start middle after : Parser} {first second : List Token}
    (reads : Reads start middle first) (later : Reads middle after second) :
    Reads start after (first ++ second) := by
  constructor
  · rw [reads.rest_eq, later.rest_eq, List.append_assoc]
  · rw [later.passed_eq, reads.passed_eq, List.reverse_append, List.append_assoc]

theorem reads_one (passed rest : List Token) (token : Token) :
    Reads ⟨passed, token :: rest⟩ ⟨token :: passed, rest⟩ [token] :=
  ⟨rfl, rfl⟩

variable {parser : Parser} {type : TokenType}

theorem advance_of_check (real : type ≠ .eof) (checked : parser.check type = .ok true) :
    ∃ token after, parser.advance = .ok (token, after) ∧
      token.type = type ∧ Reads parser after [token] := by
  obtain ⟨passed, rest⟩ := parser
  cases rest with
  | nil => simp at checked
  | cons token rest =>
    rw [check_cons _ _ _ real] at checked
    have same : token.type = type := by simpa using checked
    exact ⟨token, _, advance_cons _ _ (by rwa [same]), same, reads_one passed rest token⟩

theorem matchType_eq_ok {after : Parser} {found : Bool} (real : type ≠ .eof)
    (matched : parser.matchType type = .ok (found, after)) :
    (found = true ∧ ∃ token, token.type = type ∧ Reads parser after [token]) ∨
      (found = false ∧ after = parser ∧ ∀ token ∈ parser.rest.head?, token.type ≠ type) := by
  obtain ⟨passed, rest⟩ := parser
  cases rest with
  | nil => simp at matched
  | cons token rest =>
    rw [matchType_cons _ _ _ real] at matched
    by_cases same : token.type = type
    · simp only [same, if_true] at matched
      cases matched
      exact Or.inl ⟨rfl, token, same, reads_one passed rest token⟩
    · simp only [same, if_false] at matched
      cases matched
      exact Or.inr ⟨rfl, rfl, by simpa using same⟩

theorem consume_eq_ok {after : Parser} {message : String} {token : Token} (real : type ≠ .eof)
    (consumed : parser.consume type message = .ok (token, after)) :
    token.type = type ∧ Reads parser after [token] := by
  obtain ⟨passed, rest⟩ := parser
  cases rest with
  | nil => simp at consumed
  | cons first rest =>
    rw [consume_cons _ _ _ real] at consumed
    by_cases same : first.type = type
    · simp only [same, if_true] at consumed
      cases consumed
      exact ⟨same, reads_one passed rest token⟩
    · simp [same] at consumed

/-- The integer literals are numbers of 32 bits. -/
def IntegersFit (tokens : List Token) : Prop :=
  ∀ token ∈ tokens, token.type = .integerLiteral →
    ∃ value, stoll token.lexeme = .ok value ∧ -2 ^ 31 ≤ value ∧ value < 2 ^ 31

/-- No star stands where an argument begins. -/
def NoStarArgument (tokens : List Token) : Prop :=
  ∀ before first second after, tokens = before ++ first :: second :: after →
    first.type = .leftParen ∨ first.type = .distinct ∨ first.type = .comma →
    second.type ≠ .star

structure Plain (tokens : List Token) : Prop where
  integersFit : IntegersFit tokens
  noStarArgument : NoStarArgument tokens

theorem Plain.part {tokens : List Token} (plain : Plain tokens) (first own last : List Token)
    (split : first ++ own ++ last = tokens) : Plain own := by
  subst split
  constructor
  · intro token mem
    apply plain.integersFit token
    simp [mem]
  · intro before opener token after split
    apply plain.noStarArgument (first ++ before) opener token (after ++ last)
    simp [split]

structure Recognised (tree : Expression) (tokens : List Token) : Prop where
  canonical : tree.Canonical
  spelled : tokens.map reading = tree.inOrder

/-- What every result of `parse_expression` satisfies: it ends before a token
that does not bind tighter than the given precedence, and the tree consists of
the tokens that were read. -/
def Sound (parse : ParseExpression) : Prop :=
  ∀ precedence parser tree after, parse precedence parser = .ok (tree, after) →
    ∃ read, Reads parser after read ∧ read ≠ [] ∧
      (∃ next more, after.rest = next :: more ∧
        (getPrecedence next.type).rank ≤ precedence.rank) ∧
      (Plain read →
        Recognised tree read ∧ ∀ inner ∈ tree.root, precedence.rank < inner.rank)

section Functions

variable {parse : ParseExpression} (sound : Sound parse)
include sound

variable {parser after : Parser} {tree : Expression} {token : Token}

theorem parseArguments_sound {rounds : Nat} {arguments : List Expression}
    (parsed : parseArguments parse rounds parser = .ok (arguments, after)) :
    ∃ read, Reads parser after read ∧
      ∀ opener : Token, opener.type = .leftParen ∨ opener.type = .distinct ∨
        opener.type = .comma → Plain (opener :: read) →
        arguments ≠ [] ∧ (∀ argument ∈ arguments, argument.Canonical) ∧
          read.map reading = argumentsInOrder arguments := by
  induction rounds generalizing parser arguments with
  | zero => simp [parseArguments] at parsed
  | succ rounds induction =>
    simp only [parseArguments, bind_eq_ok] at parsed
    obtain ⟨⟨star, first⟩, starMatched, parsed⟩ := parsed
    rcases matchType_eq_ok (by decide) starMatched with
      ⟨rfl, token, isStar, reads⟩ | ⟨rfl, rfl, -⟩
    · simp only [if_true] at parsed
      cases parsed
      use [token], reads
      intro opener opens plain
      exact absurd isStar (plain.noStarArgument [] opener token [] rfl opens)
    simp only [Bool.false_eq_true, if_false, bind_eq_ok] at parsed
    obtain ⟨⟨argument, second⟩, argumentParsed, ⟨more, third⟩, commaMatched, parsed⟩ := parsed
    obtain ⟨own, ownReads, -, -, ownSound⟩ :=
      sound _ _ _ _ argumentParsed
    rcases matchType_eq_ok (by decide) commaMatched with
      ⟨rfl, comma, isComma, commaReads⟩ | ⟨rfl, rfl, -⟩
    · simp only [if_true, bind_eq_ok] at parsed
      obtain ⟨⟨rest, last⟩, restParsed, ⟨⟩⟩ := parsed
      obtain ⟨later, laterReads, laterSound⟩ := induction restParsed
      use own ++ ([comma] ++ later), ownReads.trans (commaReads.trans laterReads)
      intro opener opens plain
      have ownPlain := plain.part [opener] own (comma :: later) (by simp)
      have laterPlain := plain.part (opener :: own) (comma :: later) [] (by simp)
      obtain ⟨recognised, -⟩ := ownSound ownPlain
      obtain ⟨nonempty, canonical, spelled⟩ :=
        laterSound comma (Or.inr (Or.inr isComma)) laterPlain
      have commaReading : comma.reading = (.comma, .mark) := by simp [reading, isComma]
      simp only [List.forall_mem_cons, argumentsInOrder, List.isEmpty_iff, nonempty, if_false]
      exact ⟨by simp, ⟨recognised.canonical, canonical⟩, by
        simp [recognised.spelled, commaReading, spelled]⟩
    cases parsed
    use own, ownReads
    intro opener opens plain
    obtain ⟨recognised, -⟩ := ownSound (plain.part [opener] own [] (by simp))
    simp [argumentsInOrder, recognised.canonical, recognised.spelled]

theorem parseCallArguments_sound {arguments : List Expression}
    (parsed : parseCallArguments parse parser = .ok (arguments, after)) :
    ∃ read, Reads parser after read ∧
      ∀ opener : Token, opener.type = .leftParen ∨ opener.type = .distinct →
        Plain (opener :: read) →
        (∀ argument ∈ arguments, argument.Canonical) ∧
          read.map reading = argumentsInOrder arguments := by
  simp only [parseCallArguments, bind_eq_ok] at parsed
  obtain ⟨empty, -, parsed⟩ := parsed
  cases empty with
  | true =>
    cases parsed
    use [], Reads.refl parser
    simp [argumentsInOrder]
  | false =>
    obtain ⟨read, reads, recognised⟩ := parseArguments_sound sound parsed
    use read, reads
    intro opener opens plain
    apply (recognised opener _ plain).2
    tauto

theorem parseCall_sound {name : List UInt8}
    (parsed : parseCall parse name parser = .ok (tree, after)) :
    ∃ read, Reads parser after read ∧
      ∀ token opening : Token, token.type = .identifier →
        token.lexeme = name → opening.type = .leftParen →
        Plain (token :: opening :: read) →
        Recognised tree (token :: opening :: read) ∧ tree.root = none := by
  simp only [parseCall, bind_eq_ok] at parsed
  obtain ⟨⟨isDistinct, first⟩, distinctMatched, ⟨arguments, second⟩,
    argumentsParsed, ⟨close, third⟩, closed, parsed⟩ := parsed
  cases parsed
  obtain ⟨inner, innerReads, innerSound⟩ :=
    parseCallArguments_sound sound argumentsParsed
  obtain ⟨isClose, closeReads⟩ := consume_eq_ok (by decide) closed
  rcases matchType_eq_ok (by decide) distinctMatched with
    ⟨rfl, mark, isMark, markReads⟩ | ⟨rfl, rfl, -⟩
  · use [mark] ++ (inner ++ [close]), markReads.trans (innerReads.trans closeReads)
    intro token opening isName named opens plain
    have innerPlain := plain.part [token, opening] (mark :: inner) [close] (by simp)
    obtain ⟨canonical, spelled⟩ := innerSound mark (Or.inr isMark) innerPlain
    constructor
    · exact ⟨Expression.allCanonical_iff.mpr canonical, by
        simp [inOrder, spelled, reading, isName, opens, isMark, isClose, named]⟩
    · rfl
  use inner ++ [close], innerReads.trans closeReads
  intro token opening isName named opens plain
  have innerPlain := plain.part [token] (opening :: inner) [close] (by simp)
  obtain ⟨canonical, spelled⟩ := innerSound opening (Or.inl opens) innerPlain
  constructor
  · exact ⟨Expression.allCanonical_iff.mpr canonical, by
      simp [inOrder, spelled, reading, isName, opens, isClose, named]⟩
  · rfl

theorem parseUnary_sound {operand : Expression} (operator : token.type = .minus ∨ token.type = .not)
    (parsed : parse .unary parser = .ok (operand, after)) :
    ∃ read, Reads parser after read ∧
      (Plain (token :: read) →
        Recognised (.unary token.type operand) (token :: read) ∧
          (Expression.unary token.type operand).root = none) := by
  obtain ⟨read, reads, -, -, recognised⟩ := sound _ _ _ _ parsed
  use read, reads
  intro plain
  obtain ⟨operandRecognised, tighter⟩ := recognised (plain.part [token] read [] (by simp))
  have single : operand.root = none := by
    cases operand with
    | binary left op right =>
      have above := tighter _ rfl
      have below := rank_getPrecedence_lt_unary op
      omega
    | _ => rfl
  have mark : token.reading = (token.type, .mark) := by
    rcases operator with isMinus | isNot
    · simp [reading, isMinus]
    · simp [reading, isNot]
  constructor
  · exact ⟨⟨operator, single, operandRecognised.canonical⟩, by
      simp [inOrder, mark, operandRecognised.spelled]⟩
  · rfl

omit sound in
theorem atom_sound {found : Expression} (returned : (.ok (tree, parser) : Except SqlFailure _) =
      .ok (found, after)) (recognised : IntegersFit [token] → Recognised tree [token])
    (single : tree.root = none) : ∃ read, Reads parser after read ∧
      (Plain (token :: read) → Recognised found (token :: read) ∧ found.root = none) := by
  cases returned
  exact ⟨[], Reads.refl parser, fun plain => ⟨recognised plain.integersFit, single⟩⟩

theorem parsePrefix_sound (parsed : parsePrefix parse token parser = .ok (tree, after)) :
    ∃ read, Reads parser after read ∧
      (Plain (token :: read) → Recognised tree (token :: read) ∧ tree.root = none) := by
  unfold parsePrefix at parsed
  split at parsed
  next isInteger =>
    simp only [bind_eq_ok] at parsed
    obtain ⟨value, converted, parsed⟩ := parsed
    apply atom_sound parsed _ rfl
    intro fit
    obtain ⟨fitting, fits, low, high⟩ := fit token (by simp) isInteger
    rw [converted] at fits
    cases fits
    exact ⟨trivial, by
      simp [inOrder, reading, isInteger, converted,
        Except.toOption, Int32.toInt_ofInt_of_le low high]⟩
  next isString =>
    exact atom_sound parsed (fun _ => ⟨rfl, by simp [inOrder, reading, isString]⟩) rfl
  next isTrue =>
    exact atom_sound parsed (fun _ => ⟨trivial, by simp [inOrder, reading, isTrue]⟩) rfl
  next isFalse =>
    exact atom_sound parsed (fun _ => ⟨trivial, by simp [inOrder, reading, isFalse]⟩) rfl
  next isName =>
    simp only [bind_eq_ok] at parsed
    obtain ⟨opens, checked, parsed⟩ := parsed
    cases opens with
    | true =>
      simp only [if_true, bind_eq_ok] at parsed
      obtain ⟨⟨opening, inside⟩, advanced, parsed⟩ := parsed
      obtain ⟨first, next, steps, opens, openReads⟩ :=
        advance_of_check (by decide) checked
      simp only [steps] at advanced
      cases advanced
      obtain ⟨read, reads, recognised⟩ := parseCall_sound sound parsed
      use [opening] ++ read, openReads.trans reads
      exact recognised token opening isName rfl opens
    | false =>
      simp only [Bool.false_eq_true, if_false] at parsed
      exact atom_sound parsed (fun _ => ⟨trivial, by simp [inOrder, reading, isName]⟩) rfl
  next isParameter =>
    exact atom_sound parsed (fun _ => ⟨trivial, by simp [inOrder, reading, isParameter]⟩) rfl
  next isMinus =>
    simp only [bind_eq_ok] at parsed
    obtain ⟨⟨operand, last⟩, operandParsed, ⟨⟩⟩ := parsed
    exact parseUnary_sound sound (Or.inl isMinus) operandParsed
  next isNot =>
    simp only [bind_eq_ok] at parsed
    obtain ⟨⟨operand, last⟩, operandParsed, ⟨⟩⟩ := parsed
    exact parseUnary_sound sound (Or.inr isNot) operandParsed
  next => simp at parsed

/-- The tree on the left is canonical and made of tokens read before, and the
next operator does not bind tighter than its root. -/
structure Growing (precedence : Precedence) (left : Expression)
    (tokens rest : List Token) : Prop where
  recognised : Recognised left tokens
  tighter : ∀ inner ∈ left.root, precedence.rank < inner.rank
  follows : ∀ inner ∈ left.root, ∀ next ∈ rest.head?, (getPrecedence next.type).rank ≤ inner.rank

theorem infixLoop_sound {precedence : Precedence} {rounds : Nat} {left : Expression}
    (parsed : infixLoop parse precedence rounds left parser =
      .ok (tree, after)) : ∃ read, Reads parser after read ∧
      (∃ next more, after.rest = next :: more ∧ (getPrecedence next.type).rank ≤ precedence.rank) ∧
      ∀ before, Plain (before ++ read) → Growing precedence left before parser.rest →
        Recognised tree (before ++ read) ∧ ∀ inner ∈ tree.root, precedence.rank < inner.rank := by
  induction rounds generalizing left parser with
  | zero => simp [infixLoop] at parsed
  | succ rounds induction =>
    obtain ⟨passed, rest⟩ := parser
    cases rest with
    | nil => simp [infixLoop, bind, Except.bind] at parsed
    | cons next more =>
      by_cases binds : precedence.rank < (getPrecedence next.type).rank
      · rw [infixLoop_of_bind binds] at parsed
        obtain ⟨⟨right, middle⟩, rightParsed, parsed⟩ :=
          bind_eq_ok.mp parsed
        obtain ⟨own, ownReads, -, ⟨later, others, middle_eq, ends⟩,
          ownSound⟩ := sound _ _ _ _ rightParsed
        obtain ⟨read, reads, stops, grown⟩ := induction parsed
        use [next] ++ (own ++ read),
          (reads_one passed more next).trans (ownReads.trans reads), stops
        intro before plain growing
        have ownPlain := plain.part (before ++ [next]) own read (by simp)
        obtain ⟨rightRecognised, rightTighter⟩ := ownSound ownPlain
        have operator : getPrecedence next.type ≠ .none := by
          intro none
          rw [none] at binds
          exact absurd binds (Nat.not_lt_zero _)
        have mark : next.reading = (next.type, .mark) := by
          unfold reading
          split <;> simp_all [getPrecedence]
        have whole := grown (before ++ [next] ++ own) (by simpa using plain)
          { recognised := ⟨⟨operator, fun inner mem => growing.follows inner mem next rfl,
              rightTighter, growing.recognised.canonical,
              rightRecognised.canonical⟩, by
                simp [inOrder, growing.recognised.spelled, rightRecognised.spelled, mark]⟩
            tighter := by
              intro inner mem
              cases mem
              exact binds
            follows := by
              intro inner mem token first
              cases mem
              rw [middle_eq] at first
              cases first
              exact ends }
        simpa using whole
      have ends := Nat.not_lt.mp binds
      rw [infixLoop_of_stop ends] at parsed
      cases parsed
      use [], Reads.refl _, ⟨next, more, rfl, ends⟩
      intro before plain growing
      rw [List.append_nil]
      exact ⟨growing.recognised, growing.tighter⟩

end Functions

theorem parseWithin_sound (depth : Nat) : Sound (parseWithin depth) := by
  induction depth with
  | zero =>
    intro precedence parser tree after parsed
    simp [parseWithin] at parsed
  | succ depth induction =>
    intro precedence parser tree after parsed
    obtain ⟨passed, rest⟩ := parser
    cases rest with
    | nil => simp [parseWithin, bind, Except.bind] at parsed
    | cons token rest =>
      by_cases real : token.type = .eof
      · simp [parseWithin, bind, Except.bind, real] at parsed
      rw [parseWithin_cons real] at parsed
      obtain ⟨⟨left, middle⟩, prefixParsed, loop⟩ :=
        bind_eq_ok.mp parsed
      obtain ⟨own, ownReads, ownSound⟩ :=
        parsePrefix_sound induction prefixParsed
      obtain ⟨read, reads, stops, grown⟩ :=
        infixLoop_sound induction loop
      use [token] ++ (own ++ read), (reads_one passed rest token).trans (ownReads.trans reads),
        by simp, stops
      intro plain
      obtain ⟨recognised, single⟩ := ownSound (plain.part [] (token :: own) read (by simp))
      have whole := grown (token :: own) (by simpa using plain)
        { recognised := recognised
          tighter := by simp [single]
          follows := by simp [single] }
      simpa using whole

/-- `parse_expression` reads the tokens of every canonical tree as that tree,
and returns only canonical trees of the tokens that it has read. -/
theorem parseExpression_exact (tree : Expression) :
    (tree.Canonical → ∀ passed tokens next more, tokens.map reading = tree.inOrder →
      getPrecedence next.type = .none →
      (next.type = .leftParen → ∀ last ∈ tokens.getLast?, last.type ≠ .identifier) →
      parseExpression .assignment ⟨passed, tokens ++ next :: more⟩ =
        .ok (tree, ⟨tokens.reverse ++ passed, next :: more⟩)) ∧
    ∀ parser after, parseExpression .assignment parser = .ok (tree, after) →
      ∃ read, Reads parser after read ∧
        (IntegersFit read → NoStarArgument read →
          tree.Canonical ∧ read.map reading = tree.inOrder) := by
  constructor
  · intro canonical passed tokens next more spelled ends noCall
    apply (completes_of_canonical canonical).parse spelled _
      (root_tighter canonical) _ _ passed more
    · simp
    · rw [ends]
      decide
    intro opens
    by_contra named
    simp only [Bool.not_eq_false] at named
    obtain ⟨before, name, split⟩ :=
      Expression.inOrder_last_of_endsInIdentifier named
    rw [split, List.map_eq_append_iff] at spelled
    obtain ⟨first, last, rfl, -, spelledLast⟩ := spelled
    rw [List.map_eq_singleton_iff] at spelledLast
    obtain ⟨token, rfl, reading⟩ := spelledLast
    obtain ⟨isName, -⟩ := Prod.mk.inj reading
    exact noCall opens token (by simp) isName
  intro parser after parsed
  obtain ⟨read, reads, -, -, recognised⟩ :=
    parseWithin_sound _ _ _ _ _ parsed
  use read, reads
  intro fit noStar
  obtain ⟨⟨canonical, spelled⟩, -⟩ := recognised ⟨fit, noStar⟩
  exact ⟨canonical, spelled⟩

/-- `a + 7` before the end of the input. -/
theorem parseExpression_exact_sum :
    parseExpression .assignment ⟨[],
      [⟨.identifier, ascii "a", {}⟩, ⟨.plus, ascii "+", {}⟩,
        ⟨.integerLiteral, ascii "7", {}⟩, ⟨.eof, [], {}⟩]⟩ =
      .ok (.binary (.identifier (ascii "a")) .plus (.literal (.integer 7)),
        ⟨[⟨.integerLiteral, ascii "7", {}⟩, ⟨.plus, ascii "+", {}⟩,
          ⟨.identifier, ascii "a", {}⟩], [⟨.eof, [], {}⟩]⟩) :=
  (parseExpression_exact (.binary (.identifier (ascii "a")) .plus (.literal (.integer 7)))).1
    ⟨by decide, by simp [Expression.root], by simp [Expression.root],
      trivial, trivial⟩
    [] [⟨.identifier, ascii "a", {}⟩, ⟨.plus, ascii "+", {}⟩,
      ⟨.integerLiteral, ascii "7", {}⟩] ⟨.eof, [], {}⟩ [] (by decide +kernel)
    rfl (by simp)

end Parser

end KlyroDB
