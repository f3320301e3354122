import Mathlib.Algebra.Field.Rat
import Calculator.Proofs.Expr.Evaluation
import Calculator.Proofs.Number.Field
import Calculator.Proofs.Simplification.Rewrites

/-!
# Simplification keeps values

Over exact arithmetic each rule but `multiplyZero` keeps what a node evaluates to, be it
a value or an error. That rule keeps values, and drops the errors of a factor next to
zero. Both hold of the whole of simplification.
-/

set_option autoImplicit false

namespace Calculator

namespace Expr

section Arithmetic

variable {α : Type} [Arithmetic α] {context : Context α} {operator : Operator}
  {lhs rhs : Expr α}

/-- An operand next to a unit of the operator may stand for the operation. -/
theorem evaluate_num_right {unit : α}
    (unitResult : ∀ value, operator.result value unit = .ok value) :
    lhs.evaluate context = (binary operator lhs (.num unit)).evaluate context := by
  rw [evaluate]
  cases lhs.evaluate context with
  | error error => rfl
  | ok value => exact (unitResult value).symm

private theorem evaluate_num_left {unit : α}
    (unitResult : ∀ value, operator.result unit value = .ok value) :
    rhs.evaluate context = (binary operator (.num unit) rhs).evaluate context := by
  change rhs.evaluate context = (rhs.evaluate context >>= operator.result unit)
  cases rhs.evaluate context with
  | error error => rfl
  | ok value => exact (unitResult value).symm

end Arithmetic

end Expr

/-! ## One rule -/

namespace Rule

variable {K : Type} [Field K] [DecidableEq K] {context : Context K}

private theorem evaluate_keepLhs {operator : Operator} {unit : K}
    (unitResult : ∀ value, operator.result value unit = .ok value) {lhs rhs output : Expr K}
    (rewritten : (if rhs.isNum unit then some lhs else none) = some output) :
    output.evaluate context = (Expr.binary operator lhs rhs).evaluate context := by
  split at rewritten
  next isUnit =>
    cases rewritten
    rw [Expr.eq_num_of_isNum isUnit]
    exact Expr.evaluate_num_right unitResult
  next => cases rewritten

private theorem evaluate_keepOther {operator : Operator} {unit : K}
    (rightUnit : ∀ value, operator.result value unit = .ok value)
    (leftUnit : ∀ value, operator.result unit value = .ok value) {lhs rhs output : Expr K}
    (rewritten : (if rhs.isNum unit then some lhs
      else if lhs.isNum unit then some rhs else none) = some output) :
    output.evaluate context = (Expr.binary operator lhs rhs).evaluate context := by
  split at rewritten
  next isUnit =>
    cases rewritten
    rw [Expr.eq_num_of_isNum isUnit]
    exact Expr.evaluate_num_right rightUnit
  next =>
    split at rewritten
    next isUnit =>
      cases rewritten
      rw [Expr.eq_num_of_isNum isUnit]
      exact Expr.evaluate_num_left leftUnit
    next => cases rewritten

/-- A rule other than `multiplyZero` keeps the value or the error of the node. -/
theorem evaluate_rewrite? {rule : Rule} (keepsErrors : rule ≠ .multiplyZero)
    {node output : Expr K} (rewritten : rule.rewrite? node = some output) :
    output.evaluate context = node.evaluate context := by
  unfold rewrite? at rewritten
  split at rewritten
  case h_1 operator lhs rhs =>
    obtain ⟨value, folded, rfl⟩ := Option.map_eq_some_iff.mp rewritten
    change _ = operator.result lhs rhs
    rw [Operator.fold?_eq_some_iff.mp folded]
    rfl
  case h_2 lhs rhs =>
    refine evaluate_keepOther (fun value => ?_) (fun value => ?_) rewritten
    · rw [Operator.result_add, add_zero]
    · rw [Operator.result_add, zero_add]
  case h_3 lhs rhs =>
    refine evaluate_keepLhs (fun value => ?_) rewritten
    rw [Operator.result_sub, sub_zero]
  case h_4 => exact absurd rfl keepsErrors
  case h_5 lhs rhs =>
    refine evaluate_keepOther (fun value => ?_) (fun value => ?_) rewritten
    · rw [Operator.result_mul, mul_one]
    · rw [Operator.result_mul, one_mul]
  case h_6 lhs rhs =>
    refine evaluate_keepLhs (fun value => ?_) rewritten
    rw [Operator.result_div one_ne_zero, div_one]
  case h_7 => cases rewritten

/-- A product with zero that has a value is zero. -/
theorem evaluate_multiplyZero {node output : Expr K}
    (rewritten : multiplyZero.rewrite? node = some output) {value : K}
    (evaluated : node.evaluate context = .ok value) : output.evaluate context = .ok value := by
  cases node with
  | num | var => cases rewritten
  | binary operator lhs rhs =>
      cases operator with
      | add | sub | div => cases rewritten
      | mul =>
          simp only [rewrite?] at rewritten
          split at rewritten
          next isZero =>
            cases rewritten
            obtain ⟨lhsValue, rhsValue, lhsEvaluated, rhsEvaluated, product⟩ :=
              Expr.evaluate_binary_eq_ok.mp evaluated
            rw [Operator.result_mul] at product
            rw [← product]
            rcases Bool.or_eq_true_iff.mp isZero with isZero | isZero
            · rw [Expr.eq_num_of_isNum isZero] at lhsEvaluated
              cases lhsEvaluated
              rw [zero_mul]
              rfl
            · rw [Expr.eq_num_of_isNum isZero] at rhsEvaluated
              cases rhsEvaluated
              rw [mul_zero]
              rfl
          next => cases rewritten

/-- No rule changes the value of a node that has one. -/
theorem evaluate_rewrite?_of_ok {rule : Rule} {node output : Expr K}
    (rewritten : rule.rewrite? node = some output) {value : K}
    (evaluated : node.evaluate context = .ok value) : output.evaluate context = .ok value := by
  by_cases zero : rule = .multiplyZero
  · subst zero
    exact evaluate_multiplyZero rewritten evaluated
  · rw [evaluate_rewrite? zero rewritten, evaluated]

end Rule

/-! ## The whole expression -/

namespace Expr

variable {K : Type} [Field K] [DecidableEq K] {context : Context K}

private theorem evaluate_rewriteRoot_of_ok {node : Expr K} {value : K}
    (evaluated : node.evaluate context = .ok value) :
    node.rewriteRoot.evaluate context = .ok value := by
  unfold rewriteRoot
  cases found : Rule.firstRewrite? Rule.all node with
  | none => exact evaluated
  | some rewrite =>
      exact Rule.evaluate_rewrite?_of_ok (Rule.rewrite?_of_firstRewrite? found) evaluated

private theorem evaluate_rewriteRoot {node : Expr K}
    (keepsErrors : ∀ rewrite ∈ Rule.firstRewrite? Rule.all node, rewrite.rule ≠ .multiplyZero) :
    node.rewriteRoot.evaluate context = node.evaluate context := by
  unfold rewriteRoot
  cases found : Rule.firstRewrite? Rule.all node with
  | none => rfl
  | some rewrite =>
      have rewritten := Rule.rewrite?_of_firstRewrite? found
      exact Rule.evaluate_rewrite? (keepsErrors rewrite found) rewritten

private theorem evaluate_simplify_of_ok {expr : Expr K} {value : K}
    (evaluated : expr.evaluate context = .ok value) :
    expr.simplify.evaluate context = .ok value := by
  induction expr generalizing value with
  | num | var => exact evaluated
  | binary operator lhs rhs lhsIH rhsIH =>
      obtain ⟨lhsValue, rhsValue, lhsEvaluated, rhsEvaluated, result⟩ :=
        evaluate_binary_eq_ok.mp evaluated
      rw [simplify_binary]
      exact evaluate_rewriteRoot_of_ok (evaluate_binary_eq_ok.mpr
        ⟨lhsValue, rhsValue, lhsIH lhsEvaluated, rhsIH rhsEvaluated, result⟩)

private theorem evaluate_simplify_of_rewrites {expr : Expr K}
    (keepsErrors : ∀ rewrite ∈ expr.rewrites, rewrite.rule ≠ .multiplyZero) :
    expr.simplify.evaluate context = expr.evaluate context := by
  induction expr with
  | num | var => rfl
  | binary operator lhs rhs lhsIH rhsIH =>
      simp only [rewrites, List.mem_append, Option.mem_toList] at keepsErrors
      have root : (binary operator lhs.simplify rhs.simplify).rewriteRoot.evaluate context =
          (binary operator lhs.simplify rhs.simplify).evaluate context :=
        evaluate_rewriteRoot fun rewrite member => keepsErrors rewrite (.inr (.inr member))
      rw [simplify_binary, root]
      exact evaluate_binary_congr
        (lhsIH fun rewrite member => keepsErrors rewrite (.inl member))
        (rhsIH fun rewrite member => keepsErrors rewrite (.inr (.inl member)))

end Expr

/-- Over exact arithmetic an expression that has a value keeps it when simplified, and
one that has none keeps its error, unless a product with zero was dropped. -/
theorem evaluate_simplify {K : Type} [Field K] [DecidableEq K] (context : Context K)
    (expr : Expr K) :
    (∀ value, expr.evaluate context = .ok value →
      expr.simplify.evaluate context = .ok value) ∧
    expr.simplifyWithSteps.1 = expr.simplify ∧
    (Rule.multiplyZero ∉ expr.simplifyWithSteps.2 →
      expr.simplify.evaluate context = expr.evaluate context) := by
  refine ⟨fun value => Expr.evaluate_simplify_of_ok, ?_, fun unused => ?_⟩
  · rw [Expr.simplifyWithSteps_eq]
  · rw [Expr.simplifyWithSteps_eq] at unused
    exact Expr.evaluate_simplify_of_rewrites fun rewrite member same =>
      unused (List.mem_map.mpr ⟨rewrite, member, same⟩)

/-- The product of one more than a variable with zero, which is dropped, added to a
quotient by one. -/
def droppedProduct : Expr ℚ :=
  .add (.mul (.add (.var "x") (.num 1)) (.num 0)) (.div (.num 3) (.num 1))

/-- A quotient by zero, to which zero is added. -/
def keptQuotient : Expr ℚ :=
  .add (.div (.var "x") (.num 0)) (.num 0)

/-- Without a value for the variable only the simplified expression has one. -/
example : droppedProduct.evaluate .empty = .error (.unboundVariable "x" []) ∧
    droppedProduct.simplify.evaluate .empty = .ok 3 := by decide +kernel

theorem evaluate_simplify_rationals :
    droppedProduct.evaluate (NameMap.empty.insert "x" 2) = .ok 3 ∧
      droppedProduct.simplify.evaluate (NameMap.empty.insert "x" 2) = .ok 3 ∧
      Rule.multiplyZero ∉ keptQuotient.simplifyWithSteps.2 ∧
      keptQuotient.simplify.evaluate (NameMap.empty.insert "x" 2) =
        keptQuotient.evaluate (NameMap.empty.insert "x" 2) := by
  have evaluated : droppedProduct.evaluate (NameMap.empty.insert "x" 2) = .ok 3 := by
    decide +kernel
  have unused : Rule.multiplyZero ∉ keptQuotient.simplifyWithSteps.2 := by decide +kernel
  exact ⟨evaluated, (evaluate_simplify _ droppedProduct).1 3 evaluated, unused,
    (evaluate_simplify _ keptQuotient).2.2 unused⟩

end Calculator
