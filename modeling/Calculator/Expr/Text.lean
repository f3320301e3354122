import Calculator.Expr.Basic

/-!
# Texts of expressions

Two notations. Infix notation has as few parentheses as its reader needs: an
operand is enclosed if it binds less tightly than the operator next to it, and on
the right of an operator whose operands cannot be exchanged also if it binds
equally tightly. Parenthesized notation encloses every operation, and is the one
that is read back.
-/

set_option autoImplicit false

namespace Calculator

namespace Expr

variable {α : Type}

/-- Whether an operand must be enclosed next to `operator`; `strict` asks for it
also where both bind equally tightly. -/
def needsParentheses (operator : Operator) (strict : Bool) : Expr α → Bool
  | .binary inner _ _ =>
      inner.precedence.level < operator.precedence.level ||
        strict && inner.precedence.level == operator.precedence.level
  | _ => false

/-- A text, in parentheses if they are needed. -/
def encloseIf (needed : Bool) (text : String) : String :=
  if needed then "(" ++ text ++ ")" else text

variable [Numeral α]

/-- Infix notation with as few parentheses as possible. -/
def text : Expr α → String
  | .num value => Numeral.text value
  | .var name => name
  | .binary operator lhs rhs =>
      encloseIf (lhs.needsParentheses operator false) lhs.text ++
        " " ++ operator.text ++ " " ++
          encloseIf (rhs.needsParentheses operator (!operator.commutes)) rhs.text

/-- Notation with every operation in its own parentheses. -/
def parenthesized : Expr α → String
  | .num value => Numeral.text value
  | .var name => name
  | .binary operator lhs rhs =>
      "(" ++ lhs.parenthesized ++ " " ++ operator.text ++ " " ++ rhs.parenthesized ++ ")"

instance : ToString (Expr α) := ⟨text⟩

end Expr

end Calculator
