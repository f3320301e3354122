import Calculator.Expr.Reading
import Calculator.Proofs.Action
import Calculator.Proofs.Parser.WordReading

/-!
# Parsers read words

A parsing action agrees with an outcome of reading words if both end in the same way.
Then the parser stands before the words left over, inside of as many parentheses as
before, and has noted the operations that were read. Each action of the grammar agrees
with its reading of the words ahead, so whitespace and going back play no part in what
a source is read as.
-/

set_option autoImplicit false

namespace Calculator

namespace Parser

/-- The words after the place. -/
def words (parser : Parser) : List Token :=
  wordsOf parser.ahead

/-- Only the place, and the operations noted, differ. -/
structure Kept (start after : Parser) (completed : List (Located Operator)) : Prop where
  tokens : after.tokens = start.tokens
  depth : after.depth = start.depth
  completed : after.completed = completed.reverse ++ start.completed

theorem Kept.refl (parser : Parser) : Kept parser parser [] := ⟨rfl, rfl, rfl⟩

theorem Kept.trans {start middle last : Parser} {earlier later : List (Located Operator)}
    (first : Kept start middle earlier) (second : Kept middle last later) :
    Kept start last (earlier ++ later) where
  tokens := second.tokens.trans first.tokens
  depth := second.depth.trans first.depth
  completed := by
    rw [second.completed, first.completed, List.reverse_append, List.append_assoc]

theorem endSpan_eq_tokens (parser : Parser) :
    parser.endSpan =
      match parser.tokens.getLast? with
      | some last => .point last.span.stop
      | none => .point 0 := by
  simp only [endSpan, tokens, List.getLast?_append, List.getLast?_reverse]
  cases parser.ahead.getLast? <;> cases parser.passed.head? <;> rfl

theorem Kept.endSpan {start after : Parser} {completed : List (Located Operator)}
    (kept : Kept start after completed) : after.endSpan = start.endSpan := by
  rw [endSpan_eq_tokens, endSpan_eq_tokens, kept.tokens]

/-- A parser and a reading of words end in the same way. -/
inductive Agrees {β : Type} (start : Parser) :
    EStateM.Result ParseError Parser β → Outcome β → Prop where
  | done {value : β} {after : Parser} {completed : List (Located Operator)} :
      Kept start after completed →
      Agrees start (.ok value after) (.done value after.words completed)
  | failed {error : ParseError} {after : Parser} {completed : List (Located Operator)} :
      Kept start after completed →
      Agrees start (.error error after) (.failed error completed)

namespace Agrees

variable {β γ : Type} {start middle : Parser}

private theorem of_kept {result : EStateM.Result ParseError Parser β} {outcome : Outcome β}
    {completed : List (Located Operator)} (kept : Kept start middle completed)
    (agrees : Agrees middle result outcome) : Agrees start result (outcome.after completed) := by
  cases agrees with
  | done later => exact .done (kept.trans later)
  | failed later => exact .failed (kept.trans later)

private theorem of_moved {result : EStateM.Result ParseError Parser β} {outcome : Outcome β}
    (kept : Kept start middle []) (agrees : Agrees middle result outcome) :
    Agrees start result outcome := by
  simpa using of_kept kept agrees

theorem bind {action : ParserM β} {next : β → ParserM γ} {outcome : Outcome β}
    {goOn : β → List Token → Outcome γ} (first : Agrees start (action start) outcome)
    (second : ∀ value after completed, Kept start after completed →
      Agrees after (next value after) (goOn value after.words)) :
    Agrees start ((action >>= next) start) (outcome.andThen goOn) := by
  cases ran : action start with
  | ok value after =>
      rw [ran] at first
      rw [bind_of_ok ran]
      cases first with
      | done kept => exact of_kept kept (second _ _ _ kept)
  | error error after =>
      rw [ran] at first
      rw [bind_of_error ran]
      cases first with
      | failed kept => exact .failed kept

theorem map {action : ParserM β} {outcome : Outcome β} (f : β → γ)
    (agrees : Agrees start (action start) outcome) :
    Agrees start ((f <$> action) start) (outcome.map f) := by
  change Agrees start (EStateM.map f action start) _
  unfold EStateM.map
  cases ran : action start with
  | ok value after =>
      rw [ran] at agrees
      cases agrees with
      | done kept => exact .done kept
  | error error after =>
      rw [ran] at agrees
      cases agrees with
      | failed kept => exact .failed kept

theorem bind_pure {action : ParserM β} {f : β → γ} {outcome : Outcome β}
    (agrees : Agrees start (action start) outcome) :
    Agrees start ((action >>= fun value => pure (f value)) start) (outcome.map f) :=
  agrees.map f

theorem attempt {action : ParserM β} {outcome : Outcome β}
    (agrees : Agrees start (action start) outcome) :
    Agrees start (attempt action start) outcome := by
  unfold Parser.attempt
  cases ran : action start with
  | ok value after =>
      rw [ran] at agrees
      exact agrees
  | error error after =>
      rw [ran] at agrees
      cases agrees with
      | failed kept => exact .failed ⟨rfl, kept.depth, kept.completed⟩

end Agrees

/-! ## Whitespace -/

theorem words_skipWhitespace (parser : Parser) : parser.skipWhitespace.words = parser.words := by
  obtain ⟨passed, ahead, depth, completed⟩ := parser
  unfold words skipWhitespace wordsOf
  induction ahead with
  | nil => rfl
  | cons token rest ih =>
      by_cases blank : token.isWhitespace <;> simp_all

theorem kept_skipWhitespace (parser : Parser) : Kept parser parser.skipWhitespace [] where
  tokens := by simp [skipWhitespace, tokens, List.takeWhile_append_dropWhile]
  depth := rfl
  completed := rfl

/-- Past its whitespace a parser stands right before the first word. -/
theorem ahead_skipWhitespace (parser : Parser) :
    parser.skipWhitespace.ahead = [] ∧ parser.words = [] ∨
      ∃ word rest, parser.skipWhitespace.ahead = word :: rest ∧
        parser.words = word :: wordsOf rest := by
  rw [← words_skipWhitespace]
  unfold words
  cases found : parser.skipWhitespace.ahead with
  | nil => exact .inl ⟨rfl, rfl⟩
  | cons word rest =>
      have solid : ¬ word.isWhitespace := by
        have headSolid := List.head?_dropWhile_not Token.isWhitespace parser.ahead
        simp_all [skipWhitespace]
      exact .inr ⟨word, rest, rfl, by simp [wordsOf, solid]⟩

theorem span_skipWhitespace (parser : Parser) :
    parser.skipWhitespace.span = Words.frontSpan parser.endSpan parser.words := by
  rcases ahead_skipWhitespace parser with ⟨empty, noWords⟩ | ⟨word, rest, found, words⟩
  · simp [span, current?, empty, noWords, Words.frontSpan, (kept_skipWhitespace parser).endSpan]
  · simp [span, current?, found, words, Words.frontSpan]

theorem peek_eq (parser : Parser) :
    peek parser = .ok (parser.words.head?.map Token.kind) parser.skipWhitespace := by
  rcases ahead_skipWhitespace parser with ⟨empty, noWords⟩ | ⟨word, rest, found, words⟩
  · simp [peek, current?, empty, noWords]
  · simp [peek, current?, found, words]

/-- An action that starts with a look at the next word depends on its kind. -/
theorem Agrees.of_peek {β : Type} {start : Parser} {next : Option TokenKind → ParserM β}
    {outcome : Outcome β}
    (agrees : Agrees start.skipWhitespace
      (next (start.words.head?.map Token.kind) start.skipWhitespace) outcome) :
    Agrees start ((peek >>= next) start) outcome := by
  rw [bind_of_ok (peek_eq start)]
  exact .of_moved (kept_skipWhitespace start) agrees

theorem unexpected_eq (expected : List TokenKind) (parser : Parser) :
    unexpected expected parser =
      .ok (Words.unexpected parser.endSpan expected parser.words) parser.skipWhitespace := by
  unfold unexpected
  rcases ahead_skipWhitespace parser with ⟨empty, noWords⟩ | ⟨word, rest, found, words⟩
  · simp [empty, noWords, errorHere, span_skipWhitespace, Words.unexpected, Words.frontSpan]
  · simp only [found, words, Words.unexpected]
    split <;> rfl

theorem failUnexpected_agrees {β : Type} (expected : List TokenKind) (parser : Parser) :
    Agrees parser (failUnexpected (β := β) expected parser)
      (Words.fail parser.endSpan expected parser.words) := by
  rw [failUnexpected, bind_of_ok (unexpected_eq expected parser)]
  exact .failed (kept_skipWhitespace parser)

end Parser

end Calculator
