import Calculator.Token

/-!
# Parse errors

Why a text is no expression, and where. A fault explains itself with a message,
one label for each region that it points at, and sometimes an advice.
-/

set_option autoImplicit false

namespace Calculator

/-- The ways in which a text fails to be an expression. -/
inductive ParseFault where
  /-- There is nothing but whitespace. -/
  | emptyExpression
  /-- The text ends where an operand should begin. -/
  | unexpectedEnd
  /-- Something follows a complete expression. -/
  | expectedEnd
  /-- A token stands where only tokens of other kinds can. -/
  | unexpectedToken (expected : List TokenKind) (found : TokenKind)
  /-- A character belongs to no expression. -/
  | unrecognizedToken (lexeme : String)
  /-- Something other than an operator follows the left operand. -/
  | expectedOperator (found : TokenKind)
  /-- Something other than `)` follows the right operand. -/
  | expectedCloseParen (found : TokenKind)
  /-- A parenthesis has no partner; `opening` tells which of the two it is. -/
  | unclosedParenthesis (opening : Bool)
  /-- A number token has no value. -/
  | invalidNumber (lexeme : String)
  /-- A parenthesis stands inside as many others as are allowed. -/
  | nestingTooDeep (limit : Nat)
deriving DecidableEq, Repr

namespace ParseFault

def message : ParseFault → String
  | .emptyExpression => "empty expression"
  | .unexpectedEnd => "unexpected end of file"
  | .expectedEnd => "expected end of file"
  | .unexpectedToken _ _ => "unexpected token"
  | .unrecognizedToken lexeme => "unrecognized token `" ++ lexeme ++ "`"
  | .expectedOperator _ => "expected an operator"
  | .expectedCloseParen _ => "expected a closing parenthesis `)`"
  | .unclosedParenthesis _ => "unclosed parenthesis"
  | .invalidNumber lexeme => "invalid number `" ++ lexeme ++ "`"
  | .nestingTooDeep _ => "expression is nested too deeply"

/-- The labels of the regions that the fault points at, in order. -/
def labels : ParseFault → List String
  | .emptyExpression => ["I expected to see an expression here"]
  | .unexpectedEnd => ["you might need to add another expression here"]
  | .expectedEnd => ["I could not understand the remaining expression here"]
  | .unexpectedToken [] _ => ["expected one of:"]
  | .unexpectedToken expected _ =>
      ["expected one of: " ++ ", ".intercalate (expected.map TokenKind.label)]
  | .unrecognizedToken _ => ["this character"]
  | .expectedOperator found =>
      ["this operand...",
       "...should be followed by one of `+`, `-`, `*`, `/`, not " ++ found.label]
  | .expectedCloseParen found =>
      ["this parenthesis...", "...should be closed before this " ++ found.label]
  | .unclosedParenthesis _ => ["this parenthesis is not closed"]
  | .invalidNumber _ => ["this number"]
  | .nestingTooDeep limit =>
      ["this parenthesis exceeds the maximum nesting depth of " ++ toString limit]

/-- How to mend the text, where there is something to say. -/
def help? : ParseFault → Option String
  | .emptyExpression =>
      some ("an expression is a number, a variable name, or a parenthesized operation like " ++
        "`(x + 1)`")
  | .expectedEnd =>
      some "every binary operation must be wrapped in its own parentheses, like `(a + b)`"
  | .unexpectedToken _ found => some ("found " ++ found.label)
  | .unrecognizedToken _ =>
      some ("expressions may only contain numbers, variable names, parentheses, and the " ++
        "operators `+`, `-`, `*`, `/`")
  | .expectedCloseParen found =>
      if found.isOperator then
        some "every binary operation must be wrapped in its own parentheses, like `((a + b) + c)`"
      else some "add a closing parenthesis `)` after the right-hand operand"
  | .unclosedParenthesis opening =>
      if opening then some "add a closing parenthesis `)` somewhere after this"
      else some "add an opening parenthesis `(` somewhere before this"
  | .unexpectedEnd | .expectedOperator _ | .invalidNumber _ | .nestingTooDeep _ => none

end ParseFault

/-- A fault together with the regions of the source that it points at. -/
structure ParseError where
  spans : List Span
  fault : ParseFault
deriving DecidableEq, Repr

namespace ParseError

def message (error : ParseError) : String :=
  error.fault.message

end ParseError

end Calculator
