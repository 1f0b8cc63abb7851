import KlyroDB.Lexer

/-!
# Reading back rendered tokens

The texts of tokens, joined by single spaces, are read back as those tokens.
-/

namespace KlyroDB

def SourceLocation.pastAll (loc : SourceLocation) (text : List UInt8) : SourceLocation :=
  text.foldl SourceLocation.past loc

theorem SourceLocation.past_offset (loc : SourceLocation) (c : UInt8) :
    (loc.past c).offset = loc.offset + 1 := by
  unfold SourceLocation.past
  split <;> rfl

theorem SourceLocation.pastAll_offset (loc : SourceLocation) (text : List UInt8) :
    (loc.pastAll text).offset = loc.offset + text.length := by
  induction text generalizing loc with
  | nil => rfl
  | cons c text induction =>
    have offset := induction (loc.past c)
    simp only [SourceLocation.pastAll, List.foldl_cons, List.length_cons,
      SourceLocation.past_offset] at offset ⊢
    omega

namespace Lexer

def operators : List (List UInt8 × TokenType) :=
  [(ascii "(", .leftParen), (ascii ")", .rightParen), (ascii ",", .comma),
    (ascii ".", .dot), (ascii ";", .semicolon), (ascii "+", .plus),
    (ascii "-", .minus), (ascii "*", .star), (ascii "/", .slash),
    (ascii "=", .equal), (ascii "==", .equal), (ascii "!=", .notEqual),
    (ascii "<>", .notEqual), (ascii "<", .less), (ascii "<=", .lessEqual),
    (ascii ">", .greater), (ascii ">=", .greaterEqual),
    (ascii "||", .concat)]

def isWordStart (c : UInt8) : Bool := isAlpha c || c = code '_'

def isWordPart (c : UInt8) : Bool := isAlnum c || c = code '_'

structure Name where
  first : UInt8
  others : List UInt8
  starts : isWordStart first = true
  continues : ∀ c ∈ others, isWordPart c = true
  notKeyword : keywords.lookup (toUpper (first :: others)) = none

structure Digits where
  first : UInt8
  others : List UInt8
  starts : isDigit first = true
  continues : ∀ c ∈ others, isDigit c = true

def Digits.text (digits : Digits) : List UInt8 :=
  digits.first :: digits.others

/-- A token of the lexer's vocabulary. -/
inductive SourceToken
  | keyword (entry : List UInt8 × TokenType) (listed : entry ∈ keywords)
  | identifier (name : Name)
  | quotedIdentifier (name : List UInt8) (plain : doubleQuote ∉ name)
  | integer (digits : Digits)
  | float (whole fraction : Digits)
  | string (value : List UInt8)
  | operator (entry : List UInt8 × TokenType) (listed : entry ∈ operators)

def doubleQuotes (value : List UInt8) : List UInt8 :=
  value.flatMap fun c => if c = quote then [quote, quote] else [c]

namespace SourceToken

def type : SourceToken → TokenType
  | .keyword entry _ => entry.2
  | .identifier _ => .identifier
  | .quotedIdentifier _ _ => .quotedIdentifier
  | .integer _ => .integerLiteral
  | .float _ _ => .floatLiteral
  | .string _ => .stringLiteral
  | .operator entry _ => entry.2

def lexeme : SourceToken → List UInt8
  | .keyword entry _ => entry.1
  | .identifier name => name.first :: name.others
  | .quotedIdentifier name _ => name
  | .integer digits => digits.text
  | .float whole fraction => whole.text ++ code '.' :: fraction.text
  | .string value => value
  | .operator entry _ => entry.1

/-- The text a token is rendered to. -/
def render : SourceToken → List UInt8
  | .quotedIdentifier name _ => doubleQuote :: (name ++ [doubleQuote])
  | .string value => quote :: (doubleQuotes value ++ [quote])
  | token => token.lexeme

end SourceToken

def Separated (more : List UInt8) : Prop :=
  more = [] ∨ ∃ later, more = code ' ' :: later

/-! ## Loops -/

variable {more : List UInt8} {c : UInt8} {entry : List UInt8 × TokenType}

theorem advanceWhile_append {continues : Lexer → Bool} {text : List UInt8}
    (rounds : Nat) (loc : SourceLocation) (enough : text.length < rounds)
    (goesOn : ∀ c ∈ text, ∀ rest loc, continues ⟨c :: rest, loc⟩ = true)
    (stops : ∀ loc, continues ⟨more, loc⟩ = false) :
    advanceWhile continues rounds ⟨text ++ more, loc⟩ = .ok ⟨more, loc.pastAll text⟩ := by
  induction text generalizing rounds loc with
  | nil =>
    obtain ⟨rounds, rfl⟩ : ∃ fewer, rounds = fewer + 1 := ⟨rounds - 1, by omega⟩
    simp [advanceWhile, stops, SourceLocation.pastAll]
  | cons c text induction =>
    obtain ⟨rounds, rfl⟩ : ∃ fewer, rounds = fewer + 1 := ⟨rounds - 1, by omega⟩
    have first := goesOn c (by simp) (text ++ more) loc
    have later := induction rounds (loc.past c) (by simp at enough; omega)
      (fun d mem => goesOn d (by simp [mem]))
    simp only [List.cons_append, advanceWhile, first, if_true, advance]
    exact later

theorem textUpTo_append (text more : List UInt8) (loc : SourceLocation) :
    textUpTo ⟨text ++ more, loc⟩ ⟨more, loc.pastAll text⟩ = text := by
  simp [textUpTo, SourceLocation.pastAll_offset]

theorem Separated.peek (separated : Separated more) (loc : SourceLocation) :
    peek ⟨more, loc⟩ = 0 ∨ peek ⟨more, loc⟩ = code ' ' := by
  rcases separated with rfl | ⟨later, rfl⟩
  · exact Or.inl rfl
  · exact Or.inr rfl

/-- A test of the next character stops before a separator. -/
theorem Separated.stops {more : List UInt8} (separated : Separated more)
    {test : UInt8 → Bool} (end_false : test 0 = false)
    (space_false : test (code ' ') = false) (loc : SourceLocation) :
    test (Lexer.peek ⟨more, loc⟩) = false := by
  rcases separated.peek loc with none | space
  · rw [none, end_false]
  · rw [space, space_false]

/-! ## Scanning one token -/

theorem stepBack_past (notNewline : c ≠ newline) (rest : List UInt8) (loc : SourceLocation) :
    stepBack ⟨rest, loc.past c⟩ c = ⟨c :: rest, loc⟩ := by
  simp [stepBack, SourceLocation.past, notNewline]

def special : List UInt8 :=
  (punctuation.map Prod.fst) ++ [newline, code '=', code '!', code '<', code '>', code '|', quote,
    doubleQuote]

theorem not_special_of_isDigit (digit : isDigit c = true) : c ∉ special := by
  intro mem
  have none : ∀ c ∈ special, isDigit c = false := by decide +kernel
  exact absurd digit (by simp [none c mem])

theorem not_special_of_isWordStart (starts : isWordStart c = true) :
    c ∉ special ∧ isDigit c = false := by
  constructor
  · intro mem
    have none : ∀ c ∈ special, isWordStart c = false := by decide +kernel
    exact absurd starts (by simp [none c mem])
  · have apart : ∀ number : Fin 256,
        isWordStart ⟨⟨number⟩⟩ = true → isDigit ⟨⟨number⟩⟩ = false := by decide +kernel
    exact apart c.toFin starts

theorem scanToken_of_plain (plain : c ∉ special) (rest : List UInt8)
    (loc : SourceLocation) : scanToken ⟨c :: rest, loc⟩ =
      if isDigit c then scanNumber ⟨c :: rest, loc⟩
      else if isWordStart c then scanIdentifierOrKeyword ⟨c :: rest, loc⟩
      else .error (.makeError .invalidArgument (loc.past c) "Unexpected character") := by
  simp only [special, List.mem_append, List.mem_cons, List.not_mem_nil, or_false, not_or] at plain
  obtain ⟨notPunctuation, notNewline, notEqual, notBang, notLess, notGreater,
    notBar, notQuote, notDoubleQuote⟩ := plain
  have unlisted : punctuation.lookup c = none := by
    rw [List.lookup_eq_none_iff]
    intro entry mem
    simp only [bne_iff_ne]
    rintro rfl
    exact notPunctuation (List.mem_map_of_mem mem)
  have back := stepBack_past notNewline rest loc
  simp [scanToken, advance, bind, Except.bind, unlisted, back, notEqual, notBang, notLess,
    notGreater, notBar, notQuote, notDoubleQuote, isWordStart]

def AtToken (lexer : Lexer) : Prop :=
  isBlank lexer.peek = false ∧ ¬(lexer.peek = code '-' ∧ lexer.peekNext = code '-') ∧ ¬(lexer.peek =
    code '/' ∧ lexer.peekNext = code '*')

theorem scanToken_operator (listed : entry ∈ operators)
    (separated : Separated more) (loc : SourceLocation) :
    AtToken ⟨entry.1 ++ more, loc⟩ ∧ ∃ location after, scanToken ⟨entry.1 ++ more, loc⟩ =
      .ok (⟨entry.2, entry.1, location⟩, ⟨more, after⟩) := by
  simp only [operators, List.mem_cons, List.not_mem_nil, or_false] at listed
  rcases separated with rfl | ⟨later, rfl⟩ <;> rcases listed with rfl | rfl | rfl | rfl | rfl | rfl
    | rfl | rfl | rfl | rfl | rfl | rfl | rfl | rfl | rfl | rfl | rfl | rfl <;>
    exact ⟨⟨rfl, of_decide_eq_true rfl, of_decide_eq_true rfl⟩, _, _, rfl⟩

theorem skipDigits_append {text : List UInt8} (digits : ∀ c ∈ text, isDigit c = true)
    (stops : ∀ loc, isDigit (peek ⟨more, loc⟩) = false) (loc : SourceLocation) :
    skipDigits ⟨text ++ more, loc⟩ = .ok ⟨more, loc.pastAll text⟩ := by
  apply advanceWhile_append
  · simp only [roundsLeft, List.length_append]
    omega
  · exact fun c mem _ _ => digits c mem
  · exact stops

theorem Digits.all_digits (digits : Digits) : ∀ c ∈ digits.text, isDigit c = true := by
  intro c mem
  rcases List.mem_cons.mp mem with rfl | other
  · exact digits.starts
  · exact digits.continues c other

theorem scanToken_digits (digits : Digits) (more : List UInt8) (loc : SourceLocation) :
    scanToken ⟨digits.text ++ more, loc⟩ = scanNumber ⟨digits.text ++ more, loc⟩ := by
  have plain := scanToken_of_plain (not_special_of_isDigit digits.starts)
    (digits.others ++ more) loc
  simpa [Digits.text, digits.starts] using plain

theorem scanToken_integer (digits : Digits) (loc : SourceLocation)
    (stops : ∀ loc, isDigit (peek ⟨more, loc⟩) = false)
    (noFraction : ∀ loc, ¬(peek ⟨more, loc⟩ = code '.' ∧ isDigit (peekNext ⟨more, loc⟩) = true)) :
    scanToken ⟨digits.text ++ more, loc⟩ =
      .ok (⟨.integerLiteral, digits.text, loc⟩, ⟨more, loc.pastAll digits.text⟩) := by
  have whole := skipDigits_append digits.all_digits stops loc
  rw [scanToken_digits, scanNumber, whole]
  simp only [bind, Except.bind, if_neg (noFraction _), textUpTo_append]
  rfl

theorem scanToken_float (whole fraction : Digits) (loc : SourceLocation)
    (stops : ∀ loc, isDigit (peek ⟨more, loc⟩) = false) :
    scanToken ⟨whole.text ++ code '.' :: fraction.text ++ more, loc⟩ =
      .ok (⟨.floatLiteral, whole.text ++ code '.' :: fraction.text, loc⟩,
        ⟨more, loc.pastAll (whole.text ++ code '.' :: fraction.text)⟩) := by
  have start : skipDigits ⟨whole.text ++ code '.' :: (fraction.text ++ more), loc⟩ = .ok ⟨code '.'
      :: (fraction.text ++ more), loc.pastAll whole.text⟩ := skipDigits_append whole.all_digits
      (fun _ => rfl) loc
  have finish := skipDigits_append fraction.all_digits stops
    ((loc.pastAll whole.text).past (code '.'))
  have digit : isDigit (peekNext ⟨code '.' :: (fraction.text ++ more),
      loc.pastAll whole.text⟩) = true := fraction.starts
  have point : peek ⟨code '.' :: (fraction.text ++ more), loc.pastAll whole.text⟩ = code '.' := rfl
  have passed : ((loc.pastAll whole.text).past (code '.')).pastAll fraction.text =
      loc.pastAll (whole.text ++ code '.' :: fraction.text) := by simp [SourceLocation.pastAll]
  have text := textUpTo_append (whole.text ++ code '.' :: fraction.text) more loc
  rw [List.append_assoc, List.cons_append] at text ⊢
  rw [passed] at finish
  rw [scanToken_digits]
  simp [scanNumber, start, point, digit, advance, finish, text, bind,
    Except.bind, pure, Except.pure]

theorem scanToken_word {first : UInt8} {others : List UInt8} (starts : isWordStart first = true)
    (continues : ∀ c ∈ others, isWordPart c = true)
    (stops : ∀ loc, isWordPart (peek ⟨more, loc⟩) = false) (loc : SourceLocation) :
    scanToken ⟨first :: others ++ more, loc⟩ =
      .ok (match keywords.lookup (toUpper (first :: others)) with
        | some type => ⟨type, toUpper (first :: others), loc⟩
        | none => ⟨.identifier, first :: others, loc⟩,
        ⟨more, loc.pastAll (first :: others)⟩) := by
  obtain ⟨plain, notDigit⟩ := not_special_of_isWordStart starts
  have scan := scanToken_of_plain plain (others ++ more) loc
  simp only [notDigit, starts, Bool.false_eq_true, if_false, if_true] at scan
  have firstPart : isWordPart first = true := by
    simp only [isWordStart, Bool.or_eq_true] at starts
    rcases starts with letter | line
    · simp [isWordPart, isAlnum, letter]
    · simp only [isWordPart, line, Bool.or_true]
  have word : advanceWhile (fun lexer => isAlnum lexer.peek || lexer.peek = code '_')
      (roundsLeft ⟨first :: others ++ more, loc⟩) ⟨first :: others ++ more, loc⟩ = .ok
      ⟨more, loc.pastAll (first :: others)⟩ := by
    apply advanceWhile_append
    · simp only [roundsLeft, List.length_append]
      omega
    · intro c mem _ _
      rcases List.mem_cons.mp mem with rfl | other
      · exact firstPart
      · exact continues c other
    · exact stops
  rw [List.cons_append, scan, ← List.cons_append, scanIdentifierOrKeyword, word]
  simp only [bind, Except.bind, textUpTo_append]
  cases keywords.lookup (toUpper (first :: others)) <;> rfl

theorem keyword_shape (listed : entry ∈ keywords) :
    entry.1 = entry.1.headD 0 :: entry.1.tail ∧ isWordStart (entry.1.headD 0) = true ∧
      (∀ c ∈ entry.1.tail, isWordPart c = true) ∧ toUpper entry.1 = entry.1 ∧
      keywords.lookup entry.1 = some entry.2 := by
  revert entry
  decide +kernel

theorem scanToken_keyword (listed : entry ∈ keywords)
    (separated : Separated more) (loc : SourceLocation) :
    ∃ after, scanToken ⟨entry.1 ++ more, loc⟩ = .ok (⟨entry.2, entry.1, loc⟩, ⟨more, after⟩) := by
  obtain ⟨split, starts, continues, upper, found⟩ := keyword_shape listed
  have word := scanToken_word starts continues
    (@Separated.stops _ separated isWordPart rfl rfl) loc
  rw [← split, upper, found] at word
  exact ⟨_, word⟩

theorem scanToken_quotedIdentifier {name : List UInt8}
    (plain : doubleQuote ∉ name) (more : List UInt8) (loc : SourceLocation) :
    scanToken ⟨doubleQuote :: (name ++ [doubleQuote]) ++ more, loc⟩ =
      .ok (⟨.quotedIdentifier, name, loc.past doubleQuote⟩,
        ⟨more, loc.pastAll (doubleQuote :: (name ++ [doubleQuote]))⟩) := by
  let start := loc.past doubleQuote
  have body : advanceWhile (fun lexer => !lexer.isAtEnd && lexer.peek != doubleQuote)
      (roundsLeft ⟨name ++ doubleQuote :: more, start⟩) ⟨name ++ doubleQuote :: more, start⟩ = .ok
      ⟨doubleQuote :: more, start.pastAll name⟩ := by
    apply advanceWhile_append
    · simp only [roundsLeft, List.length_append]
      omega
    · intro c mem rest loc
      have differs : c ≠ doubleQuote := by
        rintro rfl
        exact plain mem
      simp [isAtEnd, peek, differs]
    · intro loc
      simp [peek]
  have scan : scanToken ⟨doubleQuote :: (name ++ doubleQuote :: more), loc⟩ =
      scanQuotedIdentifier ⟨name ++ doubleQuote :: more, start⟩ := rfl
  have passed : loc.pastAll (doubleQuote :: (name ++ [doubleQuote])) =
      (start.pastAll name).past doubleQuote := by simp [SourceLocation.pastAll, start]
  rw [passed]
  simp only [List.cons_append, List.append_assoc, List.nil_append]
  rw [scan, scanQuotedIdentifier, body]
  simp only [bind, Except.bind, isAtEnd, List.isEmpty_cons,
    Bool.false_eq_true, if_false, advance, textUpTo_append]
  rfl

theorem readString_doubleQuotes (separated : Separated more)
    (start : SourceLocation) (value str : List UInt8) (rounds : Nat)
    (loc : SourceLocation) (enough : value.length < rounds) :
    ∃ after, readString start rounds str ⟨doubleQuotes value ++ quote :: more, loc⟩ =
      .ok (⟨.stringLiteral, str ++ value, start⟩, ⟨more, after⟩) := by
  induction value generalizing str rounds loc with
  | nil =>
    obtain ⟨rounds, rfl⟩ : ∃ fewer, rounds = fewer + 1 := ⟨rounds - 1, by omega⟩
    have closes : peekNext ⟨quote :: more, loc⟩ ≠ quote := by
      rcases separated with rfl | ⟨later, rfl⟩ <;> simp [peekNext] <;> decide
    simp [doubleQuotes, readString, isAtEnd, peek, closes, advance, bind,
      Except.bind, pure, Except.pure]
  | cons c value induction =>
    obtain ⟨rounds, rfl⟩ : ∃ fewer, rounds = fewer + 1 := ⟨rounds - 1, by omega⟩
    have fewer : value.length < rounds := by simp at enough; omega
    by_cases isQuote : c = quote
    · subst isQuote
      obtain ⟨after, later⟩ := induction (str ++ [quote]) rounds ((loc.past quote).past quote) fewer
      use after
      have doubled : doubleQuotes (quote :: value) =
          quote :: quote :: doubleQuotes value := by simp [doubleQuotes]
      simp only [doubled, List.cons_append, readString, isAtEnd, peek, peekNext, advance, bind,
        Except.bind, List.isEmpty_cons, if_true, Bool.false_eq_true, if_false]
      rw [later, List.append_assoc, List.singleton_append]
    obtain ⟨after, later⟩ := induction (str ++ [c]) rounds (loc.past c) fewer
    use after
    have single : doubleQuotes (c :: value) = c :: doubleQuotes value := by
      simp [doubleQuotes, isQuote]
    simp only [single, List.cons_append, readString, isAtEnd, peek, advance, bind, Except.bind,
      List.isEmpty_cons, Bool.false_eq_true, if_false, isQuote]
    rw [later, List.append_assoc, List.singleton_append]

theorem length_le_doubleQuotes (value : List UInt8) :
    value.length ≤ (doubleQuotes value).length := by
  induction value with
  | nil => simp
  | cons c value induction =>
    simp only [doubleQuotes, List.flatMap_cons, List.length_append, List.length_cons] at induction ⊢
    split <;> simp only [List.length_cons, List.length_nil] <;> omega

theorem scanToken_string (value : List UInt8) (separated : Separated more)
    (loc : SourceLocation) : ∃ location after,
      scanToken ⟨quote :: (doubleQuotes value ++ [quote]) ++ more, loc⟩ =
        .ok (⟨.stringLiteral, value, location⟩, ⟨more, after⟩) := by
  let start := loc.past quote
  have scan : scanToken ⟨quote :: (doubleQuotes value ++ quote :: more), loc⟩ =
      scanStringLiteral ⟨doubleQuotes value ++ quote :: more, start⟩ := rfl
  have enough := length_le_doubleQuotes value
  obtain ⟨after, read⟩ := readString_doubleQuotes separated start value [] (roundsLeft ⟨doubleQuotes
    value ++ quote :: more, start⟩) start (by simp only [roundsLeft, List.length_append]; omega)
  use start, after
  simp only [List.cons_append, List.append_assoc, List.nil_append]
  rw [scan, scanStringLiteral, read, List.nil_append]

theorem scanToken_render (token : SourceToken) (separated : Separated more) (loc : SourceLocation) :
    ∃ location after, scanToken ⟨token.render ++ more, loc⟩ =
      .ok (⟨token.type, token.lexeme, location⟩, ⟨more, after⟩) := by
  cases token with
  | keyword entry listed =>
    exact ⟨loc, scanToken_keyword listed separated loc⟩
  | identifier name =>
    have word := scanToken_word name.starts name.continues
      (@Separated.stops _ separated isWordPart rfl rfl) loc
    rw [name.notKeyword] at word
    exact ⟨_, _, word⟩
  | quotedIdentifier name plain =>
    exact ⟨_, _, scanToken_quotedIdentifier plain more loc⟩
  | integer digits =>
    refine ⟨_, _, scanToken_integer digits loc
      (@Separated.stops _ separated isDigit rfl rfl) fun loc point => ?_⟩
    have stops := @Separated.stops _ separated (fun c => c = code '.') rfl rfl loc
    exact of_decide_eq_false stops point.1
  | float whole fraction =>
    exact ⟨_, _, scanToken_float whole fraction loc
      (@Separated.stops _ separated isDigit rfl rfl)⟩
  | string value => exact scanToken_string value separated loc
  | operator entry listed => exact (scanToken_operator listed separated loc).2

/-! ## The whole source -/

theorem AtToken.skip {lexer : Lexer} (atToken : AtToken lexer) (rounds : Nat) :
    lexer.skipWhitespaceAndComments (rounds + 1) = .ok lexer := by
  obtain ⟨notBlank, notLine, notBlock⟩ := atToken
  simp [skipWhitespaceAndComments, notBlank, notLine, notBlock]

theorem atToken_of_starts (starts : isWordStart c = true ∨ isDigit c = true ∨ c = quote ∨
      c = doubleQuote) (rest : List UInt8) (loc : SourceLocation) : AtToken ⟨c :: rest, loc⟩ := by
  have passedOver : ∀ c ∈ [code ' ', 13, 9, newline, code '-', code '/'], ¬(isWordStart c = true ∨
      isDigit c = true ∨ c = quote ∨ c = doubleQuote) := by decide +kernel
  have outside : c ∉ [code ' ', 13, 9, newline, code '-', code '/'] :=
    fun mem => passedOver c mem starts
  simp only [List.mem_cons, List.not_mem_nil, or_false, not_or] at outside
  obtain ⟨notSpace, notReturn, notTab, notNewline, notDash, notSlash⟩ := outside
  simp [AtToken, peek, isBlank, notSpace, notReturn, notTab, notNewline, notDash, notSlash]

theorem atToken_render (token : SourceToken) (separated : Separated more)
    (loc : SourceLocation) : AtToken ⟨token.render ++ more, loc⟩ := by
  cases token with
  | keyword entry listed =>
    obtain ⟨split, starts, -⟩ := keyword_shape listed
    have start := atToken_of_starts (Or.inl starts) (entry.1.tail ++ more) loc
    rwa [← List.cons_append, ← split] at start
  | identifier name => exact atToken_of_starts (Or.inl name.starts) _ _
  | quotedIdentifier _ _ | string _ => exact atToken_of_starts (by simp) _ _
  | integer digits =>
    exact atToken_of_starts (Or.inr (Or.inl digits.starts)) _ _
  | float whole fraction =>
    exact atToken_of_starts (Or.inr (Or.inl whole.starts)) _ _
  | operator entry listed => exact (scanToken_operator listed separated loc).1

def renderRest (tokens : List SourceToken) : List UInt8 :=
  tokens.flatMap fun token => code ' ' :: token.render

def contents (tokens : List Token) : List (TokenType × List UInt8) :=
  tokens.map fun token => (token.type, token.lexeme)

def SourceToken.content (token : SourceToken) : TokenType × List UInt8 :=
  (token.type, token.lexeme)

theorem separated_renderRest (tokens : List SourceToken) : Separated (renderRest tokens) := by
  cases tokens with
  | nil => exact Or.inl rfl
  | cons token tokens => exact Or.inr ⟨_, rfl⟩

theorem render_ne_nil (token : SourceToken) : token.render ≠ [] := by
  intro empty
  have scan := scanToken_render token (Or.inl rfl) {}
  simp [empty, scanToken, advance, bind, Except.bind] at scan

theorem scanTokens_at_token (token : SourceToken) (separated : Separated more)
    (lead : List UInt8) (spaced : lead = [] ∨ lead = [code ' ']) (rounds : Nat)
    (loc : SourceLocation) : ∃ location after,
      scanTokens (rounds + 1) ⟨lead ++ (token.render ++ more), loc⟩ =
        (scanTokens rounds ⟨more, after⟩).map fun tokens =>
          ⟨token.type, token.lexeme, location⟩ :: tokens := by
  have nonempty := render_ne_nil token
  obtain ⟨start, skipped⟩ : ∃ start, skipWhitespaceAndComments
      (roundsLeft ⟨lead ++ (token.render ++ more), loc⟩) ⟨lead ++ (token.render ++ more), loc⟩ = .ok
      ⟨token.render ++ more, start⟩ := by
    rcases spaced with rfl | rfl
    · exact ⟨loc, (atToken_render token separated loc).skip _⟩
    · have here := (atToken_render token separated
        (loc.past (code ' '))).skip (token.render ++ more).length
      exact ⟨_, here⟩
  obtain ⟨location, after, scan⟩ := scanToken_render token separated start
  use location, after
  have notEnd : isAtEnd ⟨lead ++ (token.render ++ more), loc⟩ = false := by simp [isAtEnd, nonempty]
  have tokenLeft : isAtEnd ⟨token.render ++ more, start⟩ = false := by simp [isAtEnd, nonempty]
  simp only [scanTokens, notEnd, Bool.false_eq_true, if_false, skipped, bind,
    Except.bind, tokenLeft, scan]
  cases scanTokens rounds ⟨more, after⟩ <;> rfl

theorem map_contents_cons {scanned : Except SqlFailure (List Token)}
    {later : List (TokenType × List UInt8)}
    (read : scanned.map contents = .ok later) (token : Token) :
    (scanned.map (token :: ·)).map contents = .ok ((token.type, token.lexeme) :: later) := by
  cases scanned with
  | error failure => simp [Except.map] at read
  | ok found =>
    simp only [Except.map, Except.ok.injEq] at read
    simp [Except.map, contents, ← read]

theorem scanTokens_renderRest (tokens : List SourceToken) (rounds : Nat)
    (loc : SourceLocation) (enough : tokens.length < rounds) :
    (scanTokens rounds ⟨renderRest tokens, loc⟩).map contents =
      .ok (tokens.map SourceToken.content ++ [(.eof, [])]) := by
  induction tokens generalizing rounds loc with
  | nil =>
    obtain ⟨rounds, rfl⟩ : ∃ fewer, rounds = fewer + 1 := ⟨rounds - 1, by omega⟩
    rfl
  | cons token tokens induction =>
    obtain ⟨rounds, rfl⟩ : ∃ fewer, rounds = fewer + 1 := ⟨rounds - 1, by omega⟩
    obtain ⟨location, after, first⟩ := scanTokens_at_token token
      (separated_renderRest tokens) [code ' '] (Or.inr rfl) rounds loc
    have later := induction rounds after (by simp at enough; omega)
    have split : renderRest (token :: tokens) =
        [code ' '] ++ (token.render ++ renderRest tokens) := by simp [renderRest]
    rw [split, first]
    exact map_contents_cons later _

theorem intercalate_render (token : SourceToken) (tokens : List SourceToken) :
    List.intercalate [code ' '] ((token :: tokens).map SourceToken.render) =
      token.render ++ renderRest tokens := by
  induction tokens generalizing token with
  | nil => simp [renderRest]
  | cons next tokens induction =>
    have later := induction next
    simp only [List.map_cons] at later
    rw [List.map_cons, List.map_cons, List.intercalate_cons_cons, later]
    simp [renderRest]

theorem length_le_renderRest (tokens : List SourceToken) :
    tokens.length ≤ (renderRest tokens).length := by
  induction tokens with
  | nil => simp
  | cons token tokens induction =>
    simp only [renderRest, List.flatMap_cons, List.length_append, List.length_cons] at induction ⊢
    omega

/-- Tokens of the vocabulary, rendered and joined by single spaces, are read
back with their types and lexemes, followed by one end marker. -/
theorem tokenize_intercalate_render (tokens : List SourceToken) :
    (tokenize (List.intercalate [code ' '] (tokens.map SourceToken.render))).map contents =
        .ok (tokens.map SourceToken.content ++ [(.eof, [])]) := by
  cases tokens with
  | nil => rfl
  | cons token tokens =>
    obtain ⟨location, after, first⟩ := scanTokens_at_token token (separated_renderRest tokens) []
      (Or.inl rfl) (token.render ++ renderRest tokens).length {}
    have nonempty := List.length_pos_iff.mpr (render_ne_nil token)
    have few := length_le_renderRest tokens
    have later := scanTokens_renderRest tokens (token.render ++ renderRest tokens).length after
      (by rw [List.length_append]; omega)
    rw [intercalate_render, tokenize, make, roundsLeft]
    rw [List.nil_append] at first
    rw [first]
    exact map_contents_cons later _

end Lexer

end KlyroDB
