import Mathlib.Algebra.Field.Rat
import Calculator.Derivative
import Calculator.Proofs.Expr.PostOrder
import Calculator.Proofs.Simplification.NormalForm

/-!
# Derivatives of constants

An expression is constant with respect to a variable that does not occur in it. Its derivative
repeats the operands all the same, next to derivatives of other constants. In one pass from the
leaves to the root these become zero and take the products with them. What is left of a quotient
is zero over the square of the divisor, and goes only where that is a number.
-/

set_option autoImplicit false

namespace Calculator

variable {K : Type} [Field K] [DecidableEq K]

namespace Expr

/-- Every division is by an expression that is simplified to a number other than zero. -/
def DividesByNumbers (expr : Expr K) : Prop :=
  ∀ lhs rhs, binary .div lhs rhs ∈ expr.postOrder → ∃ divisor ≠ 0, rhs.simplify = num divisor

private theorem dividesByNumbers_num (value : K) : DividesByNumbers (num value) := by
  intro lhs rhs member
  rw [postOrder_num] at member
  cases List.mem_singleton.mp member

private theorem dividesByNumbers_var (name : String) : DividesByNumbers (var name : Expr K) := by
  intro lhs rhs member
  rw [postOrder_var] at member
  cases List.mem_singleton.mp member

private theorem dividesByNumbers_binary {operator : Operator} {lhs rhs : Expr K} :
    DividesByNumbers (binary operator lhs rhs) ↔
      DividesByNumbers lhs ∧ DividesByNumbers rhs ∧
        (operator = .div → ∃ divisor ≠ 0, rhs.simplify = num divisor) := by
  constructor
  · intro divides
    refine ⟨fun first second member => ?_, fun first second member => ?_, fun isDiv => ?_⟩
    · exact divides first second (by simp [postOrder_binary, member])
    · exact divides first second (by simp [postOrder_binary, member])
    · exact divides lhs rhs (by simp [postOrder_binary, isDiv])
  · intro divides first second member
    obtain ⟨inLhs, inRhs, atRoot⟩ := divides
    simp only [postOrder_binary, List.mem_append, List.mem_singleton] at member
    rcases member with member | member | same
    · exact inLhs first second member
    · exact inRhs first second member
    · cases same
      exact atRoot rfl

private theorem rewriteRoot_zero_div {divisor : K} (nonzero : divisor ≠ 0) :
    (binary .div (num 0) (num divisor)).rewriteRoot = num 0 :=
  rewriteRoot_nums (by simp [Operator.fold?, nonzero])

/-- An operation on operands whose derivatives vanish has a derivative that does, unless it is
a division by something other than a number. -/
theorem simplify_derivative_binary {variableName : String} {operator : Operator}
    {lhs rhs : Expr K} (lhsVanishes : (lhs.derivative variableName).simplify = num 0)
    (rhsVanishes : (rhs.derivative variableName).simplify = num 0)
    (divides : operator = .div → ∃ divisor ≠ 0, rhs.simplify = num divisor) :
    ((binary operator lhs rhs).derivative variableName).simplify = num 0 := by
  have leftProduct : (mul (lhs.derivative variableName) rhs).simplify = num 0 := by
    rw [mul, simplify_binary, lhsVanishes, rewriteRoot_zero_mul]
  have rightProduct : (mul lhs (rhs.derivative variableName)).simplify = num 0 := by
    rw [mul, simplify_binary, rhsVanishes, rewriteRoot_mul_zero]
  cases operator with
  | add => rw [derivative, add, simplify_binary, lhsVanishes, rhsVanishes, rewriteRoot_add_zero]
  | sub => rw [derivative, sub, simplify_binary, lhsVanishes, rhsVanishes, rewriteRoot_sub_zero]
  | mul => rw [derivative, add, simplify_binary, leftProduct, rightProduct, rewriteRoot_add_zero]
  | div =>
      obtain ⟨divisor, nonzero, isNumber⟩ := divides rfl
      have dividend : (sub (mul (lhs.derivative variableName) rhs)
          (mul lhs (rhs.derivative variableName))).simplify = num 0 := by
        rw [sub, simplify_binary, leftProduct, rightProduct, rewriteRoot_sub_zero]
      have square : (mul rhs rhs).simplify = num (divisor * divisor) := by
        rw [mul, simplify_binary, isNumber]
        exact rewriteRoot_nums rfl
      rw [derivative, div, simplify_binary, dividend, square]
      exact rewriteRoot_zero_div (mul_ne_zero nonzero nonzero)

end Expr

/-- With respect to a variable that does not occur, a derivative is simplified to zero, if all
divisors are simplified to numbers other than zero. -/
theorem simplify_derivative_constant {K : Type} [Field K] [DecidableEq K] {expr : Expr K}
    {variableName : String} (constant : variableName ∉ expr.variableNames)
    (divides : expr.DividesByNumbers) :
    (expr.derivative variableName).simplify = .num 0 := by
  induction expr with
  | num value => rfl
  | var name =>
      have other : name ≠ variableName := fun same =>
        constant (Expr.mem_variableNames_var.mpr same.symm)
      rw [Expr.derivative, if_neg other, Expr.simplify_num]
  | binary operator lhs rhs lhsIH rhsIH =>
      rw [Expr.mem_variableNames_binary, not_or] at constant
      obtain ⟨lhsDivides, rhsDivides, atRoot⟩ := Expr.dividesByNumbers_binary.mp divides
      exact Expr.simplify_derivative_binary (lhsIH constant.1 lhsDivides)
        (rhsIH constant.2 rhsDivides) atRoot

/-- The divisor `y * 0 + 4`, which is simplified to four. -/
def fourDivisor : Expr ℚ :=
  .add (.mul (.var "y") (.num 0)) (.num 4)

/-- The expression `y * (z / (y * 0 + 4)) - 3 / (y * 0 + 4)`. -/
def differenceOfQuotients : Expr ℚ :=
  .sub (.mul (.var "y") (.div (.var "z") fourDivisor)) (.div (.num 3) fourDivisor)

theorem simplify_derivative_constant_difference :
    "x" ∉ differenceOfQuotients.variableNames ∧ differenceOfQuotients.DividesByNumbers ∧
      (differenceOfQuotients.derivative "x").simplify = .num 0 := by
  have constant : "x" ∉ differenceOfQuotients.variableNames := by decide +kernel
  have isFour : fourDivisor.simplify = .num 4 := by decide +kernel
  have divisor : fourDivisor.DividesByNumbers := by
    simp [fourDivisor, Expr.add, Expr.mul, Expr.dividesByNumbers_binary,
      Expr.dividesByNumbers_num, Expr.dividesByNumbers_var]
  have divides : differenceOfQuotients.DividesByNumbers := by
    simp [differenceOfQuotients, Expr.sub, Expr.mul, Expr.div, Expr.dividesByNumbers_binary,
      Expr.dividesByNumbers_num, Expr.dividesByNumbers_var, divisor, isFour]
  exact ⟨constant, divides, simplify_derivative_constant constant divides⟩

-- A divisor that is no number stays, and the quotient with it.
example : ((Expr.div (.var "y") (.var "z") : Expr ℚ).derivative "x").simplify =
    .div (.num 0) (.mul (.var "z") (.var "z")) := by
  decide +kernel

end Calculator
