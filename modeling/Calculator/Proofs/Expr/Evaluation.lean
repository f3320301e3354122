import Calculator.Evaluation
import Calculator.Proofs.Action

/-!
# Evaluation of operations

What an operation evaluates to is decided by what its operands evaluate to.
-/

set_option autoImplicit false

namespace Calculator

namespace Operator

variable {α : Type} [Arithmetic α] {operator : Operator} {lhs rhs : α}

theorem result_eq_error {error : EvalError} :
    operator.result lhs rhs = .error error ↔
      operator = .div ∧ (rhs == 0) = true ∧ error = .divisionByZero := by
  cases operator with
  | add | sub | mul => simp [result]
  | div => cases isZero : rhs == 0 <;> simp [result, isZero, eq_comm]

end Operator

namespace Expr

variable {α : Type} [Arithmetic α] {context : Context α} {operator : Operator}
  {lhs rhs : Expr α}

theorem evaluate_binary_eq_ok {value : α} :
    (binary operator lhs rhs).evaluate context = .ok value ↔
      ∃ lhsValue rhsValue, lhs.evaluate context = .ok lhsValue ∧
        rhs.evaluate context = .ok rhsValue ∧ operator.result lhsValue rhsValue = .ok value := by
  simp only [evaluate, except_bind_eq_ok, exists_and_left]

/-- The left operand fails, or the right one after it, or the operation has no result. -/
theorem evaluate_binary_eq_error {error : EvalError} :
    (binary operator lhs rhs).evaluate context = .error error ↔
      lhs.evaluate context = .error error ∨
      (∃ lhsValue, lhs.evaluate context = .ok lhsValue ∧ rhs.evaluate context = .error error) ∨
      ∃ lhsValue rhsValue, lhs.evaluate context = .ok lhsValue ∧
        rhs.evaluate context = .ok rhsValue ∧ operator.result lhsValue rhsValue = .error error := by
  simp only [evaluate, except_bind_eq_error, exists_and_left, and_or_left, exists_or]

theorem evaluate_binary_of_ok {lhsValue rhsValue : α}
    (lhsEvaluated : lhs.evaluate context = .ok lhsValue)
    (rhsEvaluated : rhs.evaluate context = .ok rhsValue) :
    (binary operator lhs rhs).evaluate context = operator.result lhsValue rhsValue := by
  rw [evaluate, lhsEvaluated, rhsEvaluated]
  rfl

theorem evaluate_binary_congr {newLhs newRhs : Expr α}
    (lhsSame : newLhs.evaluate context = lhs.evaluate context)
    (rhsSame : newRhs.evaluate context = rhs.evaluate context) :
    (binary operator newLhs newRhs).evaluate context =
      (binary operator lhs rhs).evaluate context := by
  simp only [evaluate, lhsSame, rhsSame]

end Expr

end Calculator
