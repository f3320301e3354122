import Mathlib.Algebra.Field.Rat
import Calculator.Proofs.Number.Overflow
import Calculator.Proofs.Parser.Derivation
import Calculator.Proofs.Parser.GrammarAgreement
import Calculator.Proofs.Parser.ReadingPlace

/-!
# Faults that no source has

Every number token of a source has a value, and what a parser saw ahead of it is what it reads
next. So no reading fails for want of a number's value, and none fails at an operator or at a
closing parenthesis that was seen.
-/

set_option autoImplicit false

namespace Calculator

namespace Parser

/-! ## What was seen is read -/

section Seen

variable {start seen : Parser} {kind : TokenKind}

/-- The parser past a token that stands right before `rest`. -/
def pass (parser : Parser) (token : Token) (rest : List Token) : Parser :=
  { parser with passed := token :: parser.passed, ahead := rest }

private theorem skipWhitespace_of_solid {parser : Parser} {token : Token} {rest : List Token}
    (ahead : parser.ahead = token :: rest) (solid : token.isWhitespace = false) :
    parser.skipWhitespace = parser := by
  obtain ⟨passed, _, depth, completed⟩ := parser
  cases ahead
  simp [skipWhitespace, solid]

private theorem mem_ahead_of_words {parser : Parser} {word : Token} {rest : List Token}
    (words : parser.words = word :: rest) : word ∈ parser.ahead ∧ word.isWhitespace = false := by
  have member : word ∈ wordsOf parser.ahead := by
    rw [← Parser.words, words]
    exact List.mem_cons_self
  simpa [wordsOf] using member

private theorem ahead_of_peek (peeked : peek start = .ok (some kind) seen) :
    ∃ token rest, seen.ahead = token :: rest ∧ token.kind = kind ∧ seen.skipWhitespace = seen := by
  rw [peek_eq] at peeked
  injection peeked with sameKind sameSeen
  subst sameSeen
  rcases ahead_skipWhitespace start with ⟨-, noWords⟩ | ⟨token, rest, ahead, words⟩
  · rw [noWords] at sameKind
    cases sameKind
  · rw [words] at sameKind
    have solid := (mem_ahead_of_words words).2
    exact ⟨token, rest, ahead, Option.some.inj sameKind, skipWhitespace_of_solid ahead solid⟩

/-- The token whose kind was seen is the next one. -/
theorem next_of_peek (peeked : peek start = .ok (some kind) seen) (readable : kind ≠ .symbol) :
    ∃ token rest, token.kind = kind ∧ next seen = .ok token (seen.pass token rest) := by
  obtain ⟨token, rest, ahead, rfl, still⟩ := ahead_of_peek peeked
  refine ⟨token, rest, rfl, ?_⟩
  simp only [next, still, ahead, readable, if_false]
  rfl

private theorem attempt_operator_of_peek (peeked : peek start = .ok (some kind) seen)
    (isOperator : kind.isOperator = true) :
    ∃ found after, attempt operator seen = .ok found after ∧
      kind.operator? = some found.value := by
  rw [TokenKind.isOperator_eq] at isOperator
  obtain ⟨operator, written⟩ := Option.isSome_iff_exists.mp isOperator
  have readable : kind ≠ .symbol := by
    rintro rfl
    cases written
  obtain ⟨token, rest, rfl, read⟩ := next_of_peek peeked readable
  refine ⟨⟨operator, token.span⟩, seen.pass token rest, ?_, written⟩
  have ran : Parser.operator seen = .ok ⟨operator, token.span⟩ (seen.pass token rest) := by
    rw [Parser.operator, bind_of_ok read]
    simp only [written]
    rfl
  rw [attempt, ran]

private theorem attempt_token_of_peek (peeked : peek start = .ok (some kind) seen)
    (readable : kind ≠ .symbol) :
    ∃ found after, attempt (token kind) seen = .ok found after := by
  obtain ⟨token, rest, same, read⟩ := next_of_peek peeked readable
  refine ⟨⟨token.lexeme, token.span⟩, seen.pass token rest, ?_⟩
  have ran : Parser.token kind seen = .ok ⟨token.lexeme, token.span⟩ (seen.pass token rest) := by
    rw [Parser.token, bind_of_ok read, if_pos same]
    rfl
  rw [attempt, ran]

private theorem operatorAfter_of_peek {α : Type} (opening : Span) (lhs : ParseTree α)
    (peeked : peek start = .ok (some kind) seen) (isOperator : kind.isOperator = true) :
    operatorAfter opening lhs start = attempt operator seen := by
  rw [operatorAfter, bind_of_ok peeked]
  cases kind with
  | add | sub | mul | div => rfl
  | _ => cases isOperator

private theorem closing_of_peek (opening : Span)
    (peeked : peek start = .ok (some .closeParen) seen) :
    closing opening start = (Located.span <$> attempt (token .closeParen)) seen := by
  rw [closing, bind_of_ok peeked]
  rfl

end Seen

/-! ## Numbers have values -/

/-- Each number token around a parser has a value. -/
def HasValues (α : Type) [Numeral α] (parser : Parser) : Prop :=
  ∀ token ∈ parser.tokens, token.kind = .num →
    ∃ value : α, Numeral.read? token.lexeme = some value

/-- Where the numbers have values, an action does not fail because one has none. -/
def SparesNumbers (α : Type) [Numeral α] {β : Type} (action : ParserM β) : Prop :=
  ∀ start error after, HasValues α start → action start = .error error after →
    ∀ lexeme, error.fault ≠ .invalidNumber lexeme

namespace SparesNumbers

variable {α β γ : Type} [Numeral α] {action : ParserM β}

private theorem pure (value : β) : SparesNumbers α (Pure.pure value) := by
  intro _ _ _ _ ran
  cases ran

private theorem throw {error : ParseError} (other : ∀ lexeme, error.fault ≠ .invalidNumber lexeme) :
    SparesNumbers α (MonadExcept.throw error : ParserM β) := by
  intro _ _ _ _ ran
  cases ran
  exact other

private theorem bind {goOn : β → ParserM γ} (routine : IsRoutine action)
    (first : SparesNumbers α action)
    (second : ∀ value, SparesNumbers α (goOn value)) : SparesNumbers α (action >>= goOn) := by
  intro start error after values ran
  rcases bind_eq_error.mp ran with failed | ⟨value, middle, found, failed⟩
  · exact first start error after values failed
  · have onward := routine.onward start
    rw [found] at onward
    have sameTokens : middle.tokens = start.tokens := onward.tokens
    have stillValues : HasValues α middle := by
      rw [HasValues, sameTokens]
      exact values
    exact second value middle error after stillValues failed

private theorem map (f : β → γ) (routine : IsRoutine action) (spares : SparesNumbers α action) :
    SparesNumbers α (f <$> action) :=
  spares.bind routine fun value => pure (f value)

private theorem attempt (spares : SparesNumbers α action) : SparesNumbers α (attempt action) := by
  intro start error after values ran
  unfold Parser.attempt at ran
  split at ran
  case h_1 => cases ran
  case h_2 failure place failed =>
    cases ran
    exact spares start _ _ values failed

private theorem nested (opening : Span) (spares : SparesNumbers α action) :
    SparesNumbers α (nested opening action) := by
  intro start error after values ran
  unfold Parser.nested nestedOr at ran
  split at ran
  case isFalse =>
    cases ran
    intro lexeme same
    cases same
  case isTrue =>
    split at ran
    case h_1 => cases ran
    case h_2 failure place failed =>
      cases ran
      exact spares { start with depth := start.depth + 1 } _ _ values failed

end SparesNumbers

section Actions

variable {α : Type} [Numeral α]

private theorem SparesNumbers.after_get {β : Type} {goOn : Parser → ParserM β}
    (second : ∀ place, SparesNumbers α (goOn place)) : SparesNumbers α (get >>= goOn) := by
  refine .bind get_isRoutine ?_ second
  intro _ _ _ _ ran
  cases ran

private theorem SparesNumbers.after_peek {β : Type} {goOn : Option TokenKind → ParserM β}
    (second : ∀ kind?, SparesNumbers α (goOn kind?)) : SparesNumbers α (peek >>= goOn) := by
  refine .bind peek_isRoutine ?_ second
  intro _ _ _ _ ran
  cases ran

private theorem next_sparesNumbers : SparesNumbers α next := by
  intro start error after _ ran
  unfold next at ran
  dsimp only at ran
  split at ran
  case h_1 =>
    cases ran
    simp [errorHere]
  case h_2 =>
    split at ran
    · cases ran
      simp
    · cases ran

private theorem failUnexpected_sparesNumbers {β : Type} (expected : List TokenKind) :
    SparesNumbers α (failUnexpected (β := β) expected) := by
  intro start error after _ ran
  rw [failUnexpected, bind_of_ok (unexpected_eq expected start)] at ran
  cases ran
  unfold Words.unexpected
  cases start.words with
  | nil => simp
  | cons word rest => dsimp only; split <;> simp

private theorem token_sparesNumbers (kind : TokenKind) : SparesNumbers α (token kind) := by
  refine .bind (.perform .next) next_sparesNumbers fun found => ?_
  split
  · exact .pure _
  · exact .throw (by simp)

private theorem operator_sparesNumbers : SparesNumbers α operator := by
  refine .bind (.perform .next) next_sparesNumbers fun found => ?_
  split
  · exact .pure _
  · exact .throw (by simp)

private theorem nameTree_sparesNumbers : SparesNumbers α (nameTree (α := α)) :=
  (token_sparesNumbers .name).attempt.map _ (token_isRoutine .name).attempt

private theorem operatorAfter_sparesNumbers (opening : Span) (lhs : ParseTree α) :
    SparesNumbers α (operatorAfter opening lhs) := by
  refine .after_peek fun kind? => ?_
  split
  · exact .throw (by simp)
  · exact failUnexpected_sparesNumbers _
  · split
    · exact operator_sparesNumbers.attempt
    · exact .after_get fun _ => .throw (by simp)

private theorem closing_sparesNumbers (opening : Span) : SparesNumbers α (closing opening) := by
  refine .after_peek fun kind? => ?_
  split
  · exact .throw (by simp)
  · exact .map _ (token_isRoutine .closeParen).attempt (token_sparesNumbers .closeParen).attempt
  · exact failUnexpected_sparesNumbers _
  · exact .after_get fun _ => .throw (by simp)

private theorem complete_sparesNumbers (operator : Operator) (span : Span) :
    SparesNumbers α (complete operator span) := by
  intro _ _ _ _ ran
  cases ran

private theorem operationOf_sparesNumbers {operand : ParserM (ParseTree α)}
    (routine : IsRoutine operand)
    (spares : SparesNumbers α operand) : SparesNumbers α (operationOf operand) := by
  refine .bind (token_isRoutine .openParen).attempt (token_sparesNumbers .openParen).attempt
    fun opening => .nested opening.span ?_
  refine .bind routine.attempt spares.attempt fun lhs => ?_
  refine .bind (operatorAfter_isRoutine opening.span lhs)
    (operatorAfter_sparesNumbers opening.span lhs) fun operator => ?_
  refine .bind routine.attempt spares.attempt fun rhs => ?_
  refine .bind (closing_isRoutine opening.span) (closing_sparesNumbers opening.span)
    fun closing => ?_
  let span := opening.span.through closing
  exact .bind (.perform (.complete operator.value span))
    (complete_sparesNumbers operator.value span) fun _ => .pure _

/-- A token that was read as a number is one of those around the parser. -/
theorem read_of_token_num {start after : Parser} {found : Located String}
    (values : HasValues α start) (read : token .num start = .ok found after) :
    ∃ value : α, Numeral.read? found.value = some value := by
  have agrees := token_agrees .num (by decide) start
  rw [read] at agrees
  generalize outcome : Words.token start.endSpan .num start.words = given at agrees
  cases agrees
  obtain ⟨⟨word, isNum⟩, words, -, rfl⟩ := Words.token_eq_done outcome
  exact values word (List.mem_append_right _ (mem_ahead_of_words words).1) isNum

private theorem numeral_sparesNumbers {finish : Located String → α → Located α} :
    SparesNumbers α (attempt (token .num) >>= fun numeral =>
      numeralValue numeral >>= fun value => pure (finish numeral value)) := by
  intro start error after values ran
  rcases bind_eq_error.mp ran with failed | ⟨found, middle, read, failed⟩
  · exact (token_sparesNumbers .num).attempt start error after values failed
  · have numRead : token .num start = .ok found middle := by
      unfold attempt at read
      split at read
      case h_1 same => cases read; exact same
      case h_2 => cases read
    obtain ⟨value, given⟩ := read_of_token_num values numRead
    rw [numeralValue, given] at failed
    cases failed

private theorem whole_sparesNumbers {β : Type} {action : ParserM β} (routine : IsRoutine action)
    (spares : SparesNumbers α action) : SparesNumbers α (whole action) := by
  refine .after_peek fun first? => ?_
  split
  · exact .after_get fun _ => .throw (by simp)
  · refine .bind routine spares fun value => ?_
    refine .after_peek fun last? => ?_
    split
    · exact .pure _
    · exact .after_get fun _ => .throw (by simp [errorHere])
    · exact .after_get fun _ => .throw (by simp)

variable [Neg α]

private theorem number_sparesNumbers : SparesNumbers α (number (α := α)) := by
  have minus : SparesNumbers α (optional (token .sub)) := by
    intro start error after _ ran
    unfold optional at ran
    split at ran <;> cases ran
  refine .bind (optional_isRoutine (token_isRoutine .sub)) minus fun minus? => ?_
  split
  · exact numeral_sparesNumbers
  · exact numeral_sparesNumbers

private theorem numberTree_sparesNumbers : SparesNumbers α (numberTree (α := α)) :=
  number_sparesNumbers.map _ number_isRoutine

private theorem literal_sparesNumbers : SparesNumbers α (literal (α := α)) := by
  refine .after_peek fun kind? => ?_
  split
  · exact nameTree_sparesNumbers.attempt
  · exact numberTree_sparesNumbers.attempt
  · exact numberTree_sparesNumbers.attempt
  · exact failUnexpected_sparesNumbers _

private theorem expressionOf_sparesNumbers {operation : ParserM (ParseTree α)}
    (spares : SparesNumbers α operation) : SparesNumbers α (expressionOf operation) := by
  refine .after_peek fun kind? => ?_
  split
  · exact spares.attempt
  · exact literal_sparesNumbers.attempt
  · exact literal_sparesNumbers.attempt
  · exact literal_sparesNumbers.attempt
  · exact failUnexpected_sparesNumbers _

private theorem expressionWithin_sparesNumbers (levels : Nat) :
    SparesNumbers α (expressionWithin (α := α) levels) := by
  induction levels with
  | zero =>
      exact expressionOf_sparesNumbers (operationOf_sparesNumbers (failUnexpected_isRoutine [])
        (failUnexpected_sparesNumbers []))
  | succ levels ih =>
      exact expressionOf_sparesNumbers
        (operationOf_sparesNumbers (expressionWithin_isRoutine levels) ih)

private theorem read_sparesNumbers (production : Production) :
    SparesNumbers α (production.read (α := α)) := by
  cases production with
  | expression =>
      refine .map _ (.bind get_isRoutine fun _ => expressionWithin_isRoutine _) ?_
      exact .after_get fun _ => expressionWithin_sparesNumbers _
  | operation =>
      have routine (levels : Nat) : IsRoutine (operationOf (expressionWithin (α := α) levels)) :=
        operationOf_isRoutine (expressionWithin_isRoutine levels)
      refine .map _ (.bind get_isRoutine fun _ => routine _) ?_
      exact .after_get fun _ =>
        operationOf_sparesNumbers (expressionWithin_isRoutine _) (expressionWithin_sparesNumbers _)
  | literal => exact literal_sparesNumbers.map _ literal_isRoutine
  | number => exact numberTree_sparesNumbers.map _ numberTree_isRoutine
  | name => exact nameTree_sparesNumbers.map _ nameTree_isRoutine
  | operator => exact operator_sparesNumbers.map _ operator_isRoutine

end Actions

end Parser

/-- Each number token of a source has a value, which is infinity among the doubles if it is
too large for them. So no reading fails for want of a value, wherever it starts and whatever is
read. An operator or a closing parenthesis that was seen is read when it is asked for, so no
operation fails there. -/
theorem numbers_and_seen_tokens_read {α : Type} [Numeral α] [Neg α] (reads : ReadsNumerals α)
    (source : String) :
    (∀ token ∈ tokenize source, token.kind = .num →
      (∃ value : α, Numeral.read? token.lexeme = some value) ∧
      ∃ exact : ℚ, Numeral.read? token.lexeme = some exact ∧
        (2 ^ 1024 - 2 ^ 970 ≤ exact →
          Numeral.read? token.lexeme = some (1.0 / 0.0 : Float))) ∧
    (∀ (production : Production) (error : ParseError) (lexeme : String),
      production.parse (α := α) source = .error error → error.fault ≠ .invalidNumber lexeme) ∧
    (∀ (production : Production) (point after : Parser) (error : ParseError) (lexeme : String),
      point.tokens = tokenize source →
      Parser.attempt (production.read (α := α)) point = .error error after ∨
        Parser.whole (production.read (α := α)) point = .error error after →
      error.fault ≠ .invalidNumber lexeme) ∧
    ∀ (point seen : Parser) (kind : TokenKind), Parser.peek point = .ok (some kind) seen →
      (kind.isOperator = true → ∃ found after,
        Parser.attempt Parser.operator seen = .ok found after ∧
        kind.operator? = some found.value ∧
        ∀ opening (lhs : ParseTree α), Parser.operatorAfter opening lhs point = .ok found after) ∧
      (kind = .closeParen → ∃ found after,
        Parser.attempt (Parser.token .closeParen) seen = .ok found after ∧
        ∀ opening, Parser.closing opening point = .ok found.span after) := by
  have values (point : Parser) (tokens : point.tokens = tokenize source) :
      Parser.HasValues α point := by
    rw [Parser.HasValues, tokens]
    exact fun token member isNum => reads _ (numeralText_of_mem_tokensFrom member isNum)
  have sparesRead (production : Production) :
      Parser.SparesNumbers α (production.read (α := α)) :=
    Parser.read_sparesNumbers production
  have sparesWhole (production : Production) :
      Parser.SparesNumbers α (Parser.whole (production.read (α := α))) :=
    Parser.whole_sparesNumbers (Parser.read_isRoutine production) (sparesRead production)
  refine ⟨?numbers, ?parses, ?readings, ?seen⟩
  case numbers =>
    intro token member isNum
    have text := numeralText_of_mem_tokensFrom member isNum
    obtain ⟨exact, read⟩ := readsNumerals_rat token.lexeme text
    exact ⟨reads token.lexeme text, exact, read, read_eq_infinity read⟩
  case parses =>
    intro production error lexeme failed
    unfold Production.parse at failed
    split at failed
    case h_1 => cases failed
    case h_2 failure after ran =>
      cases failed
      exact sparesWhole production _ _ _ (values (Parser.ofSource source) rfl) ran lexeme
  case readings =>
    intro production point after error lexeme tokens failed
    rcases failed with failed | failed
    · exact (sparesRead production).attempt _ _ _ (values point tokens) failed lexeme
    · exact sparesWhole production _ _ _ (values point tokens) failed lexeme
  case seen =>
    intro point seen kind peeked
    constructor
    · intro isOperator
      obtain ⟨found, after, read, same⟩ := Parser.attempt_operator_of_peek peeked isOperator
      refine ⟨found, after, read, same, fun opening lhs => ?_⟩
      rw [Parser.operatorAfter_of_peek opening lhs peeked isOperator, read]
    · rintro rfl
      obtain ⟨found, after, read⟩ := Parser.attempt_token_of_peek peeked (by decide)
      refine ⟨found, after, read, fun opening => ?_⟩
      rw [Parser.closing_of_peek opening peeked]
      change EStateM.map _ _ _ = _
      rw [EStateM.map, read]

/-- A parser inside `(3. + .5 x`, behind its first operand. -/
def behindThree : Parser :=
  ⟨[⟨.num, "3.", ⟨1, 3⟩⟩, ⟨.openParen, "(", ⟨0, 1⟩⟩],
    [⟨.whitespace, " ", ⟨3, 4⟩⟩, ⟨.add, "+", ⟨4, 5⟩⟩, ⟨.whitespace, " ", ⟨5, 6⟩⟩,
      ⟨.num, ".5", ⟨6, 8⟩⟩, ⟨.whitespace, " ", ⟨8, 9⟩⟩, ⟨.name, "x", ⟨9, 10⟩⟩], 1, []⟩

theorem numbers_and_seen_tokens_read_sum :
    ReadsNumerals Float ∧ behindThree.tokens = tokenize "(3. + .5 x" ∧
      (∃ value : Float, Numeral.read? "3." = some value) ∧
      (∃ value : Float, Numeral.read? ".5" = some value) ∧
      (∃ error, Production.expression.parse (α := Float) "(3. + .5 x" = .error error ∧
        ∀ lexeme, error.fault ≠ .invalidNumber lexeme) ∧
      (∃ error after,
        Parser.attempt (Production.number.read (α := Float)) behindThree = .error error after ∧
          ∀ lexeme, error.fault ≠ .invalidNumber lexeme) ∧
      Parser.peek behindThree = .ok (some .add) behindThree.skipWhitespace ∧
      ∃ found after, Parser.attempt Parser.operator behindThree.skipWhitespace = .ok found after := by
  have tokens : behindThree.tokens = tokenize "(3. + .5 x" := by decide +kernel
  have words : sourceWords "(3. + .5 x" =
      [⟨.openParen, "(", ⟨0, 1⟩⟩, ⟨.num, "3.", ⟨1, 3⟩⟩, ⟨.add, "+", ⟨4, 5⟩⟩,
        ⟨.num, ".5", ⟨6, 8⟩⟩, ⟨.name, "x", ⟨9, 10⟩⟩] := by decide +kernel
  have rejected : Production.expression.parse (α := Float) "(3. + .5 x" =
      .error ⟨[⟨0, 1⟩, ⟨9, 10⟩], .expectedCloseParen .name⟩ := by
    rw [Production.parse_eq, words]
    rfl
  have refused : Parser.attempt (Production.number.read (α := Float)) behindThree =
      .error ⟨[⟨4, 5⟩], .unexpectedToken [.num] .add⟩ behindThree := rfl
  have peeked : Parser.peek behindThree = .ok (some .add) behindThree.skipWhitespace := rfl
  obtain ⟨numbers, parses, readings, seen⟩ :=
    numbers_and_seen_tokens_read (α := Float) readsNumerals_float "(3. + .5 x"
  rw [← tokens] at numbers
  obtain ⟨found, after, read, -⟩ := (seen _ _ _ peeked).1 rfl
  exact ⟨readsNumerals_float, tokens, (numbers ⟨.num, "3.", ⟨1, 3⟩⟩ (by decide) rfl).1,
    (numbers ⟨.num, ".5", ⟨6, 8⟩⟩ (by decide) rfl).1,
    ⟨_, rejected, fun lexeme => parses .expression _ lexeme rejected⟩,
    ⟨_, _, refused, fun lexeme => readings .number _ _ _ lexeme tokens (.inl refused)⟩,
    peeked, found, after, read⟩

end Calculator
