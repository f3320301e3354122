import Calculator.Expr.Basic
import Calculator.Parser.Grammar

/-!
# Expressions from texts

A text is read with the grammar of parenthesized expressions; nothing is
simplified or evaluated on the way.
-/

set_option autoImplicit false

namespace Calculator

namespace ParseTree

variable {α : Type} [Numeral α] [Neg α]

/-- Reads a whole source as an expression, and gives the operations that were
read before the end, in the order of their closing parentheses. -/
def parseCompleting (source : String) :
    Except ParseError (ParseTree α) × List (Located Operator) :=
  match Parser.whole (Parser.expression (α := α)) (Parser.ofSource source) with
  | .ok tree parser => (.ok tree, parser.completed.reverse)
  | .error error parser => (.error error, parser.completed.reverse)

def parse (source : String) : Except ParseError (ParseTree α) :=
  (parseCompleting source).1

end ParseTree

namespace Expr

variable {α : Type} [Numeral α] [Neg α]

/-- The expression of a text. -/
def ofText (source : String) : Except ParseError (Expr α) :=
  (ParseTree.parse source).map ofTree

end Expr

end Calculator
