import Mathlib.Algebra.Field.Basic
import Calculator.Derivative
import Calculator.Proofs.Simplification.NormalForm

/-!
# Derivatives of simplified expressions

The derivative of an expression repeats its operands, simplified or not. Over exact
arithmetic that makes no difference once the derivative is simplified: what a rule leaves
of a node has the derivative of the node, up to zeros and ones that vanish.
-/

set_option autoImplicit false

namespace Calculator

variable {K : Type} [Field K] [DecidableEq K]

namespace Expr

/-- The simplified derivative of an operation depends on the simplified operands and their
simplified derivatives only. -/
theorem simplify_derivative_congr {variableName : String} {operator : Operator}
    {lhs newLhs rhs newRhs : Expr K}
    (lhsSame : newLhs.simplify = lhs.simplify) (rhsSame : newRhs.simplify = rhs.simplify)
    (lhsSlope : (newLhs.derivative variableName).simplify =
      (lhs.derivative variableName).simplify)
    (rhsSlope : (newRhs.derivative variableName).simplify =
      (rhs.derivative variableName).simplify) :
    ((binary operator newLhs newRhs).derivative variableName).simplify =
      ((binary operator lhs rhs).derivative variableName).simplify := by
  have leftProduct := simplify_binary_congr .mul lhsSlope rhsSame
  have rightProduct := simplify_binary_congr .mul lhsSame rhsSlope
  cases operator with
  | add => exact simplify_binary_congr .add lhsSlope rhsSlope
  | sub => exact simplify_binary_congr .sub lhsSlope rhsSlope
  | mul => exact simplify_binary_congr .add leftProduct rightProduct
  | div =>
      have numerator := simplify_binary_congr .sub leftProduct rightProduct
      have denominator := simplify_binary_congr .mul rhsSame rhsSame
      exact simplify_binary_congr .div numerator denominator

/-- A law that holds of a node holds of its derivative, once that is simplified. -/
theorem simplify_derivative_of_law {rule : Rule} {node output : Expr K}
    (law : Rule.Law rule node output) (variableName : String) :
    (output.derivative variableName).simplify = (node.derivative variableName).simplify := by
  cases law with
  | @fold operator lhs rhs value folded =>
      cases operator with
      | add | sub | mul => simp [derivative, add, sub, mul, simplify_binary]
      | div =>
          have nonzero : rhs ≠ 0 := by
            intro zero
            simp [Operator.fold?, zero] at folded
          have divisor : (binary .mul (num rhs) (num rhs)).rewriteRoot = num (rhs * rhs) :=
            rewriteRoot_nums rfl
          have quotient : (binary .div (num 0) (num (rhs * rhs))).rewriteRoot = num 0 :=
            rewriteRoot_nums (by simp [Operator.fold?, nonzero])
          simp [derivative, div, sub, mul, simplify_binary, divisor, quotient]
  | add_zero | zero_add | sub_zero | mul_zero | zero_mul | mul_one | one_mul | div_one =>
      simp [derivative, add, sub, mul, div, simplify_binary]

private theorem simplify_derivative_rewriteRoot (node : Expr K) (variableName : String) :
    (node.rewriteRoot.derivative variableName).simplify =
      (node.derivative variableName).simplify := by
  unfold rewriteRoot
  cases found : Rule.firstRewrite? Rule.all node with
  | none => rfl
  | some rewrite =>
      have law := Rule.law_of_rewrite? (Rule.rewrite?_of_firstRewrite? found)
      exact simplify_derivative_of_law law variableName

end Expr

/-- An expression and its simplified form have the same derivative, once that is
simplified. -/
theorem simplify_derivative_simplify {K : Type} [Field K] [DecidableEq K] (expr : Expr K)
    (variableName : String) :
    (expr.simplify.derivative variableName).simplify =
      (expr.derivative variableName).simplify := by
  induction expr with
  | num | var => rfl
  | binary operator lhs rhs lhsIH rhsIH =>
      rw [Expr.simplify_binary, Expr.simplify_derivative_rewriteRoot]
      exact Expr.simplify_derivative_congr (Expr.simplify_simplify lhs)
        (Expr.simplify_simplify rhs) lhsIH rhsIH

end Calculator
