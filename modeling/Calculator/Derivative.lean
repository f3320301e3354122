import Calculator.Expr.Basic

/-!
# Derivatives

The derivative of an expression by the rules for sums, differences, products and
quotients. It is left as the rules give it, with terms such as `1 * x`.
-/

set_option autoImplicit false

namespace Calculator

namespace Expr

variable {α : Type} [Zero α] [One α]

/-- The derivative with respect to a variable. Every other variable is a
constant. -/
def derivative (variableName : String) : Expr α → Expr α
  | .num _ => .num 0
  | .var name => .num (if name = variableName then 1 else 0)
  | .binary operator lhs rhs =>
      let lhsDerivative := lhs.derivative variableName
      let rhsDerivative := rhs.derivative variableName
      match operator with
      | .add => add lhsDerivative rhsDerivative
      | .sub => sub lhsDerivative rhsDerivative
      | .mul => add (mul lhsDerivative rhs) (mul lhs rhsDerivative)
      | .div => div (sub (mul lhsDerivative rhs) (mul lhs rhsDerivative)) (mul rhs rhs)

end Expr

end Calculator
