import Calculator.Operator
import Calculator.Text.Span

/-!
# Tokens

The kinds of tokens and the tokens of a source, each with the text that it was
made from.
-/

set_option autoImplicit false

namespace Calculator

/-- The kinds of tokens. -/
inductive TokenKind where
  /-- A run of spaces, tabs, line feeds and carriage returns. -/
  | whitespace
  | add
  | sub
  | mul
  | div
  | openParen
  | closeParen
  /-- A letter or underscore, then letters, digits and underscores. -/
  | name
  /-- Digits with an optional fraction, or a fraction alone. -/
  | num
  /-- A character that begins no other token. -/
  | symbol
deriving DecidableEq, Repr

namespace TokenKind

/-- All kinds, in the order of their declaration. -/
def all : List TokenKind :=
  [.whitespace, .add, .sub, .mul, .div, .openParen, .closeParen, .name, .num, .symbol]

/-- The label of a kind, as messages show it. -/
def label : TokenKind → String
  | .whitespace => "Whitespace"
  | .add => "Add"
  | .sub => "Sub"
  | .mul => "Mul"
  | .div => "Div"
  | .openParen => "OpenParen"
  | .closeParen => "CloseParen"
  | .name => "Name"
  | .num => "Num"
  | .symbol => "Symbol"

/-- The kind of a label. -/
def ofLabel? (label : String) : Option TokenKind :=
  all.find? (·.label == label)

/-- The operator that a token of this kind writes. -/
def operator? : TokenKind → Option Operator
  | .add => some .add
  | .sub => some .sub
  | .mul => some .mul
  | .div => some .div
  | _ => none

/-- Whether a token of this kind writes an operator. -/
def isOperator : TokenKind → Bool
  | .add | .sub | .mul | .div => true
  | _ => false

theorem isOperator_eq (kind : TokenKind) : kind.isOperator = kind.operator?.isSome := by
  cases kind <;> rfl

end TokenKind

structure Token where
  kind : TokenKind
  lexeme : String
  span : Span
deriving DecidableEq, Repr

namespace Token

/-- Whether a token only separates others. -/
def isWhitespace (token : Token) : Bool :=
  token.kind == .whitespace

end Token

end Calculator
