import Calculator.ParseError
import Calculator.Token.Lexer

/-!
# Parsers

A parser stands between two tokens of a source. A parsing action moves it and
gives a value or fails; a failed action still has a parser that it ended with, so
going back is a decision of its own (`attempt`).

The number of parentheses that a parser is inside of is bounded by
`nestingLimit`.
-/

set_option autoImplicit false

namespace Calculator

/-- The greatest number of parentheses that may be nested. -/
def nestingLimit : Nat := 128

/-- A place in the tokens of a source. -/
structure Parser where
  /-- The tokens before the place, the nearest first. -/
  passed : List Token
  /-- The tokens after the place. -/
  ahead : List Token
  /-- The number of parentheses that the place is inside of. -/
  depth : Nat
  /-- The operations read so far, each with the region of its parentheses, the
  latest first. Going back does not forget them. -/
  completed : List (Located Operator)
deriving DecidableEq, Repr

/-- An action that moves a parser and gives a value, or fails with an `ε`. -/
abbrev ParseAction (ε β : Type) := EStateM ε Parser β

/-- An action that fails with parse errors. -/
abbrev ParserM (β : Type) := ParseAction ParseError β

namespace Parser

/-- A parser at the start of a source. -/
def ofSource (source : String) : Parser :=
  ⟨[], tokenize source, 0, []⟩

def tokens (parser : Parser) : List Token :=
  parser.passed.reverse ++ parser.ahead

/-- How many tokens are before the place. -/
def cursor (parser : Parser) : Nat :=
  parser.passed.length

/-- The token right before the place, whitespace included. -/
def previous? (parser : Parser) : Option Token :=
  parser.passed.head?

/-- The token right after the place, whitespace included. -/
def current? (parser : Parser) : Option Token :=
  parser.ahead.head?

/-- The empty region at the end of the source. -/
def endSpan (parser : Parser) : Span :=
  match parser.ahead.getLast? <|> parser.passed.head? with
  | some last => .point last.span.stop
  | none => .point 0

/-- The region of the token after the place, or the end of the source. -/
def span (parser : Parser) : Span :=
  match parser.current? with
  | some token => token.span
  | none => parser.endSpan

/-- An error that points at the token after the place. -/
def errorHere (parser : Parser) (fault : ParseFault) : ParseError :=
  ⟨[parser.span], fault⟩

/-- The parser past all whitespace tokens. -/
def skipWhitespace (parser : Parser) : Parser :=
  { parser with
    passed := (parser.ahead.takeWhile Token.isWhitespace).reverse ++ parser.passed
    ahead := parser.ahead.dropWhile Token.isWhitespace }

/-- The parser at the place of another one, with everything else kept. -/
def backTo (place parser : Parser) : Parser :=
  { parser with passed := place.passed, ahead := place.ahead }

/-- The kind of the next token that is not whitespace. The whitespace before it
is passed, the token is not. -/
def peek : ParserM (Option TokenKind) := fun parser =>
  let parser := parser.skipWhitespace
  .ok (parser.current?.map Token.kind) parser

/-- The next token that is not whitespace, which is passed. A symbol is passed
too, but it is an error. -/
def next : ParserM Token := fun parser =>
  let parser := parser.skipWhitespace
  match parser.ahead with
  | [] => .error (parser.errorHere .unexpectedEnd) parser
  | token :: rest =>
      let parser := { parser with passed := token :: parser.passed, ahead := rest }
      if token.kind = .symbol then
        .error ⟨[token.span], .unrecognizedToken token.lexeme⟩ parser
      else .ok token parser

/-- The error that the next token is none of the expected ones. A symbol is
reported as such, and so is the end of the source. -/
def unexpected (expected : List TokenKind) : ParserM ParseError := fun parser =>
  let parser := parser.skipWhitespace
  match parser.ahead with
  | [] => .ok (parser.errorHere .unexpectedEnd) parser
  | token :: _ =>
      if token.kind = .symbol then
        .ok ⟨[token.span], .unrecognizedToken token.lexeme⟩ parser
      else .ok ⟨[token.span], .unexpectedToken expected token.kind⟩ parser

/-- Fails with the error that the next token is none of the expected ones. -/
def failUnexpected {β : Type} (expected : List TokenKind) : ParserM β := do
  throw (← unexpected expected)

/-- Runs an action and goes back to where it started if it fails. -/
def attempt {ε β : Type} (action : ParseAction ε β) : ParseAction ε β := fun parser =>
  match action parser with
  | .ok value after => .ok value after
  | .error failure after => .error failure (parser.backTo after)

/-- Runs an action one parenthesis deeper. At the limit the action is not run and
the failure points at the parenthesis `opening`; `refusal` makes it a failure of
the action. -/
def nestedOr {ε β : Type} (refusal : ParseError → ε) (opening : Span)
    (action : ParseAction ε β) : ParseAction ε β := fun parser =>
  if parser.depth < nestingLimit then
    match action { parser with depth := parser.depth + 1 } with
    | .ok value after => .ok value { after with depth := after.depth - 1 }
    | .error failure after => .error failure { after with depth := after.depth - 1 }
  else .error (refusal ⟨[opening], .nestingTooDeep nestingLimit⟩) parser

/-- Runs an action one parenthesis deeper, unless the limit is reached. -/
def nested {β : Type} (opening : Span) (action : ParserM β) : ParserM β :=
  nestedOr id opening action

/-- Runs an action that must use up the source. Only whitespace may follow, and a
source of whitespace alone is no input for it. -/
def whole {β : Type} (action : ParserM β) : ParserM β := do
  if (← peek).isNone then
    throw ⟨[(← get).endSpan], .emptyExpression⟩
  let value ← action
  match ← peek with
  | none => return value
  | some .closeParen => throw ((← get).errorHere (.unclosedParenthesis false))
  | some _ =>
      let parser ← get
      throw ⟨[parser.span.through parser.endSpan], .expectedEnd⟩

end Parser

end Calculator
