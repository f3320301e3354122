import Mathlib.Algebra.Field.Basic
import Calculator.Evaluation

/-!
# Exact arithmetic

The operations of a field are an arithmetic without rounding, in which a number equals
zero only if it is zero.
-/

set_option autoImplicit false

namespace Calculator

variable {K : Type} [Field K] [DecidableEq K]

instance exactArithmetic : Arithmetic K where
  toZero := inferInstance
  toOne := inferInstance
  toAdd := inferInstance
  toSub := inferInstance
  toMul := inferInstance
  toDiv := inferInstance
  toNeg := inferInstance
  toBEq := inferInstance

namespace Operator

theorem result_add (lhs rhs : K) : Operator.add.result lhs rhs = .ok (lhs + rhs) := rfl

theorem result_sub (lhs rhs : K) : Operator.sub.result lhs rhs = .ok (lhs - rhs) := rfl

theorem result_mul (lhs rhs : K) : Operator.mul.result lhs rhs = .ok (lhs * rhs) := rfl

theorem result_div_zero (lhs : K) : Operator.div.result lhs 0 = .error .divisionByZero := by
  have isZero : ((0 : K) == 0) = true := beq_self_eq_true 0
  simp only [result]
  rw [if_pos isZero]

theorem result_div {rhs : K} (nonzero : rhs ≠ 0) (lhs : K) :
    Operator.div.result lhs rhs = .ok (lhs / rhs) := by
  have notZero : ¬(rhs == 0) = true := by rwa [beq_iff_eq]
  simp only [result]
  rw [if_neg notZero]

end Operator

theorem Expr.eq_num_of_isNum {value : K} {expr : Expr K} (isNum : expr.isNum value = true) :
    expr = .num value := by
  cases expr with
  | num other => rw [beq_iff_eq.mp isNum]
  | var | binary => cases isNum

end Calculator
