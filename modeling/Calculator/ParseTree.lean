import Calculator.Number
import Calculator.Operator
import Calculator.Text.Span

/-!
# Parse trees

The tree of an expression as it was written: each leaf, operator and
parenthesized operation knows the region of the source that it came from.
-/

set_option autoImplicit false

namespace Calculator

/-- An expression as it was written, over numbers of type `α`. -/
inductive ParseTree (α : Type) where
  | number (value : α) (span : Span)
  | name (lexeme : String) (span : Span)
  /-- An operation in its parentheses; `span` includes both of them. -/
  | operation (lhs : ParseTree α) (operator : Located Operator) (rhs : ParseTree α) (span : Span)
deriving Repr

namespace ParseTree

variable {α : Type}

def span : ParseTree α → Span
  | .number _ span | .name _ span | .operation _ _ _ span => span

/-- The fully parenthesized text of a tree. -/
def text [Numeral α] : ParseTree α → String
  | .number value _ => Numeral.text value
  | .name lexeme _ => lexeme
  | .operation lhs operator rhs _ =>
      "(" ++ lhs.text ++ " " ++ operator.value.text ++ " " ++ rhs.text ++ ")"

end ParseTree

end Calculator
