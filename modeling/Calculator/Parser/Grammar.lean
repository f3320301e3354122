import Calculator.Number
import Calculator.ParseTree
import Calculator.Parser.Basic

/-!
# The grammar of expressions

    expression := number | name | `(` expression operator expression `)`
    number     := `-`? numeral

Every operation has its own parentheses, so nothing is left to precedence. The
parser decides by the next token alone and goes back only where it fails.
-/

set_option autoImplicit false

namespace Calculator

namespace Parser

/-- Passes a token of one kind. -/
def token (kind : TokenKind) : ParserM (Located String) := do
  let found ← next
  if found.kind = kind then return ⟨found.lexeme, found.span⟩
  else throw ⟨[found.span], .unexpectedToken [kind] found.kind⟩

/-- Runs an action; where it fails, there is no value and the parser is back. -/
def optional {β : Type} (action : ParserM β) : ParserM (Option β) := fun parser =>
  match attempt action parser with
  | .ok value after => .ok (some value) after
  | .error _ after => .ok none after

def operator : ParserM (Located Operator) := do
  let found ← next
  match found.kind.operator? with
  | some value => return ⟨value, found.span⟩
  | none => throw ⟨[found.span], .unexpectedToken [.add, .sub, .mul, .div] found.kind⟩

def name : ParserM (Located String) :=
  attempt (token .name)

section Numbers

variable {α : Type} [Numeral α] [Neg α]

def numeralValue (numeral : Located String) : ParserM α :=
  match Numeral.read? numeral.value with
  | some value => return value
  | none => throw ⟨[numeral.span], .invalidNumber numeral.value⟩

/-- Reads a number; a minus sign in front of a numeral belongs to it. -/
def number : ParserM (Located α) := do
  match ← optional (token .sub) with
  | some minus =>
      let numeral ← attempt (token .num)
      let value : α ← numeralValue numeral
      return ⟨-value, minus.span.through numeral.span⟩
  | none =>
      let numeral ← attempt (token .num)
      return ⟨← numeralValue numeral, numeral.span⟩

def nameTree : ParserM (ParseTree α) := do
  let found ← name
  return .name found.value found.span

def numberTree : ParserM (ParseTree α) := do
  let found ← number
  return .number found.value found.span

/-- Reads a leaf of an expression. -/
def literal : ParserM (ParseTree α) := do
  match ← peek with
  | some .name => attempt nameTree
  | some .num | some .sub => attempt numberTree
  | _ => failUnexpected [.name, .num]

/-- Reads what stands between two operands, given the tree on the left and its
parenthesis. -/
def operatorAfter (opening : Span) (lhs : ParseTree α) : ParserM (Located Operator) := do
  match ← peek with
  | none => throw ⟨[opening], .unclosedParenthesis true⟩
  | some .symbol => failUnexpected []
  | some found =>
      if found.isOperator then attempt operator
      else throw ⟨[lhs.span, (← get).span], .expectedOperator found⟩

/-- Reads the parenthesis that closes an operation. -/
def closing (opening : Span) : ParserM Span := do
  match ← peek with
  | none => throw ⟨[opening], .unclosedParenthesis true⟩
  | some .closeParen => return (← attempt (token .closeParen)).span
  | some .symbol => failUnexpected [.closeParen]
  | some found => throw ⟨[opening, (← get).span], .expectedCloseParen found⟩

/-- Notes that an operation was read. -/
def complete (operator : Operator) (span : Span) : ParserM Unit :=
  modify fun parser => { parser with completed := ⟨operator, span⟩ :: parser.completed }

/-- Reads a parenthesized operation, with `operand` for its operands. -/
def operationOf (operand : ParserM (ParseTree α)) : ParserM (ParseTree α) := do
  let opening ← attempt (token .openParen)
  nested opening.span do
    let lhs ← attempt operand
    let operator ← operatorAfter opening.span lhs
    let rhs ← attempt operand
    let span := opening.span.through (← closing opening.span)
    complete operator.value span
    return .operation lhs operator rhs span

/-- Reads an expression, with `operation` for parenthesized operations. -/
def expressionOf (operation : ParserM (ParseTree α)) : ParserM (ParseTree α) := do
  match ← peek with
  | some .openParen => attempt operation
  | some .name | some .num | some .sub => attempt literal
  | _ => failUnexpected [.openParen, .name, .num]

/-- Reads an expression in which at most `levels` parentheses are nested. Where
none are left, `nested` refuses before it asks for an operand. -/
def expressionWithin : Nat → ParserM (ParseTree α)
  | 0 => expressionOf (operationOf (failUnexpected []))
  | levels + 1 => expressionOf (operationOf (expressionWithin levels))

def expression : ParserM (ParseTree α) := do
  expressionWithin (nestingLimit - (← get).depth)

def operation : ParserM (ParseTree α) := do
  operationOf (expressionWithin (nestingLimit - (← get).depth - 1))

end Numbers

end Parser

/-- What can be read from a source. -/
inductive Production where
  | expression
  | operation
  | literal
  | number
  | name
  | operator
deriving DecidableEq, Repr

/-- What was read from a source. -/
inductive Phrase (α : Type) where
  | tree (found : ParseTree α)
  | operator (found : Located Operator)
deriving Repr

namespace Phrase

variable {α : Type}

/-- The region of a phrase. -/
def span : Phrase α → Span
  | .tree found => found.span
  | .operator found => found.span

/-- The text of a phrase. An operator is written with its precedence. -/
def text [Numeral α] : Phrase α → String
  | .tree found => found.text
  | .operator found => found.value.text ++ " " ++ found.value.precedence.name

end Phrase

namespace Production

variable {α : Type} [Numeral α] [Neg α]

/-- Reads what a production describes. -/
def read : Production → ParserM (Phrase α)
  | .expression => .tree <$> Parser.expression
  | .operation => .tree <$> Parser.operation
  | .literal => .tree <$> Parser.literal
  | .number => .tree <$> Parser.numberTree
  | .name => .tree <$> Parser.nameTree
  | .operator => .operator <$> Parser.operator

/-- Reads a whole source as what a production describes. -/
def parse (production : Production) (source : String) : Except ParseError (Phrase α) :=
  match Parser.whole (production.read (α := α)) (Parser.ofSource source) with
  | .ok phrase _ => .ok phrase
  | .error error _ => .error error

end Production

end Calculator
