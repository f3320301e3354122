import Mathlib.Algebra.Field.Rat
import Calculator.Derivative
import Calculator.Proofs.Expr.Evaluation
import Calculator.Proofs.Expr.OperandOrder
import Calculator.Proofs.Simplification.NormalForm

/-!
# The order of operands does not matter

Over exact arithmetic, expressions that are equal up to the order of operands have the same
value, and derivatives and simplified forms that are equal in this way again. Errors are left
out: which of two operands fails first does depend on their order.
-/

set_option autoImplicit false

namespace Calculator

variable {K : Type} [Field K] [DecidableEq K]

namespace Operator

private theorem fold?_comm {operator : Operator} (commutes : operator.commutes = true)
    (lhs rhs : K) : operator.fold? lhs rhs = operator.fold? rhs lhs := by
  cases operator with
  | add => exact congrArg some (add_comm lhs rhs)
  | mul => exact congrArg some (mul_comm lhs rhs)
  | sub | div => cases commutes

private theorem result_comm {operator : Operator} (commutes : operator.commutes = true)
    (lhs rhs : K) : operator.result lhs rhs = operator.result rhs lhs := by
  cases operator with
  | add => exact congrArg Except.ok (add_comm lhs rhs)
  | mul => exact congrArg Except.ok (mul_comm lhs rhs)
  | sub | div => cases commutes

end Operator

namespace Expr

private theorem matches_num_self (value : K) : Matches (num value) (num value) :=
  .num (beq_self_eq_true value)

private theorem eq_of_matches_num {value : K} {other : Expr K} (both : Matches (num value) other) :
    other = num value := by
  cases both with
  | num equal => rw [beq_iff_eq.mp equal]

/-- A number on the right of an operator stays there, or comes to the left of it. -/
theorem exists_of_matches_num_right {operator : Operator} {expr other : Expr K} {value : K}
    (both : Matches (binary operator expr (num value)) other) :
    ∃ kept, Matches expr kept ∧ (other = binary operator kept (num value) ∨
      operator.commutes = true ∧ other = binary operator (num value) kept) := by
  cases both with
  | straight _ kept number =>
      cases eq_of_matches_num number
      exact ⟨_, kept, .inl rfl⟩
  | crossed commutes kept number =>
      cases eq_of_matches_num number
      exact ⟨_, kept, .inr ⟨commutes, rfl⟩⟩

private theorem exists_of_matches_num_left {operator : Operator} {expr other : Expr K} {value : K}
    (both : Matches (binary operator (num value) expr) other) :
    ∃ kept, Matches expr kept ∧ (other = binary operator (num value) kept ∨
      operator.commutes = true ∧ other = binary operator kept (num value)) := by
  cases both with
  | straight _ number kept =>
      cases eq_of_matches_num number
      exact ⟨_, kept, .inl rfl⟩
  | crossed commutes number kept =>
      cases eq_of_matches_num number
      exact ⟨_, kept, .inr ⟨commutes, rfl⟩⟩

/-! ## Evaluation and derivatives -/

theorem Matches.evaluate_eq_ok {first second : Expr K} (both : Matches first second)
    {context : Context K} {value : K} (evaluated : first.evaluate context = .ok value) :
    second.evaluate context = .ok value := by
  induction both generalizing value with
  | num equal =>
      cases beq_iff_eq.mp equal
      exact evaluated
  | var => exact evaluated
  | straight _ _ _ lhsIH rhsIH =>
      obtain ⟨lhsValue, rhsValue, lhsEvaluated, rhsEvaluated, result⟩ :=
        evaluate_binary_eq_ok.mp evaluated
      exact evaluate_binary_eq_ok.mpr
        ⟨lhsValue, rhsValue, lhsIH lhsEvaluated, rhsIH rhsEvaluated, result⟩
  | crossed commutes _ _ lhsIH rhsIH =>
      obtain ⟨lhsValue, rhsValue, lhsEvaluated, rhsEvaluated, result⟩ :=
        evaluate_binary_eq_ok.mp evaluated
      rw [Operator.result_comm commutes] at result
      exact evaluate_binary_eq_ok.mpr
        ⟨rhsValue, lhsValue, rhsIH rhsEvaluated, lhsIH lhsEvaluated, result⟩

private theorem Matches.derivative {first second : Expr K} (both : Matches first second)
    (variableName : String) :
    Matches (first.derivative variableName) (second.derivative variableName) := by
  induction both with
  | num | var => exact matches_num_self _
  | straight operator lhs rhs lhsIH rhsIH =>
      have leftProducts := straight .mul lhsIH rhs
      have rightProducts := straight .mul lhs rhsIH
      cases operator with
      | add => exact .straight .add lhsIH rhsIH
      | sub => exact .straight .sub lhsIH rhsIH
      | mul => exact .straight .add leftProducts rightProducts
      | div =>
          exact .straight .div (.straight .sub leftProducts rightProducts) (.straight .mul rhs rhs)
  | @crossed operator commutes _ _ _ _ lhs rhs lhsIH rhsIH =>
      cases operator with
      | add => exact .crossed rfl lhsIH rhsIH
      | mul =>
          -- The left product of the one is the right product of the other with crossed factors.
          exact .crossed rfl (.crossed rfl lhsIH rhs) (.crossed rfl lhs rhsIH)
      | sub | div => cases commutes

end Expr

/-! ## Simplification -/

/-- The law that holds of one node holds of the other, or its mirror image does. -/
theorem Rule.Law.exists_of_matches {rule : Rule} {node other output : Expr K}
    (law : Rule.Law rule node output) (both : Expr.Matches node other) :
    ∃ otherOutput, Rule.Law rule other otherOutput ∧ Expr.Matches output otherOutput := by
  cases law with
  | fold folded =>
      obtain ⟨kept, number, rfl | ⟨commutes, rfl⟩⟩ := Expr.exists_of_matches_num_right both
      · cases Expr.eq_of_matches_num number
        exact ⟨_, .fold folded, Expr.matches_num_self _⟩
      · cases Expr.eq_of_matches_num number
        rw [Operator.fold?_comm commutes] at folded
        exact ⟨_, .fold folded, Expr.matches_num_self _⟩
  | add_zero =>
      obtain ⟨kept, same, rfl | ⟨-, rfl⟩⟩ := Expr.exists_of_matches_num_right both
      · exact ⟨kept, .add_zero kept, same⟩
      · exact ⟨kept, .zero_add kept, same⟩
  | zero_add =>
      obtain ⟨kept, same, rfl | ⟨-, rfl⟩⟩ := Expr.exists_of_matches_num_left both
      · exact ⟨kept, .zero_add kept, same⟩
      · exact ⟨kept, .add_zero kept, same⟩
  | sub_zero =>
      obtain ⟨kept, same, rfl | ⟨commutes, -⟩⟩ := Expr.exists_of_matches_num_right both
      · exact ⟨kept, .sub_zero kept, same⟩
      · cases commutes
  | mul_zero =>
      obtain ⟨kept, -, rfl | ⟨-, rfl⟩⟩ := Expr.exists_of_matches_num_right both
      · exact ⟨_, .mul_zero kept, Expr.matches_num_self 0⟩
      · exact ⟨_, .zero_mul kept, Expr.matches_num_self 0⟩
  | zero_mul =>
      obtain ⟨kept, -, rfl | ⟨-, rfl⟩⟩ := Expr.exists_of_matches_num_left both
      · exact ⟨_, .zero_mul kept, Expr.matches_num_self 0⟩
      · exact ⟨_, .mul_zero kept, Expr.matches_num_self 0⟩
  | mul_one =>
      obtain ⟨kept, same, rfl | ⟨-, rfl⟩⟩ := Expr.exists_of_matches_num_right both
      · exact ⟨kept, .mul_one kept, same⟩
      · exact ⟨kept, .one_mul kept, same⟩
  | one_mul =>
      obtain ⟨kept, same, rfl | ⟨-, rfl⟩⟩ := Expr.exists_of_matches_num_left both
      · exact ⟨kept, .one_mul kept, same⟩
      · exact ⟨kept, .mul_one kept, same⟩
  | div_one =>
      obtain ⟨kept, same, rfl | ⟨commutes, -⟩⟩ := Expr.exists_of_matches_num_right both
      · exact ⟨kept, .div_one kept, same⟩
      · cases commutes

namespace Expr

private theorem rewriteRoot_eq_self {node : Expr K}
    (noLaw : ∀ rule output, ¬Rule.Law rule node output) : node.rewriteRoot = node := by
  unfold rewriteRoot
  cases found : Rule.firstRewrite? Rule.all node with
  | none => rfl
  | some rewrite =>
      exact absurd (Rule.law_of_rewrite? (Rule.rewrite?_of_firstRewrite? found)) (noLaw _ _)

/-- Which operand a rule asks first makes no difference, as one law at most has a say. -/
theorem Matches.rewriteRoot {first second : Expr K} (both : Matches first second) :
    Matches first.rewriteRoot second.rewriteRoot := by
  by_cases applies : ∃ rule output, Rule.Law rule first output
  · obtain ⟨rule, output, law⟩ := applies
    obtain ⟨otherOutput, otherLaw, outputs⟩ := law.exists_of_matches both
    rw [Rule.rewriteRoot_of_law law, Rule.rewriteRoot_of_law otherLaw]
    exact outputs
  · have noLaw (rule : Rule) (output : Expr K) : ¬Rule.Law rule first output := by
      intro law
      exact applies ⟨rule, output, law⟩
    have noOtherLaw (rule : Rule) (output : Expr K) : ¬Rule.Law rule second output := by
      intro law
      obtain ⟨firstOutput, firstLaw, _⟩ := law.exists_of_matches both.symm
      exact noLaw rule firstOutput firstLaw
    rw [rewriteRoot_eq_self noLaw, rewriteRoot_eq_self noOtherLaw]
    exact both

private theorem Matches.simplify {first second : Expr K} (both : Matches first second) :
    Matches first.simplify second.simplify := by
  induction both with
  | num equal => exact .num equal
  | var name => exact .var name
  | straight operator _ _ lhsIH rhsIH =>
      rw [simplify_binary, simplify_binary]
      exact Matches.rewriteRoot (.straight operator lhsIH rhsIH)
  | crossed commutes _ _ lhsIH rhsIH =>
      rw [simplify_binary, simplify_binary]
      exact Matches.rewriteRoot (.crossed commutes lhsIH rhsIH)

end Expr

/-- Over exact arithmetic, expressions that are equal up to the order of operands have the same
values, and their derivatives and their simplified forms are equal in this way, too. -/
theorem eqCommutative_respected {K : Type} [Field K] [DecidableEq K] (first second : Expr K)
    (equal : first.eqCommutative second = true) (context : Context K) (variableName : String) :
    (∀ value, first.evaluate context = .ok value ↔ second.evaluate context = .ok value) ∧
    (first.derivative variableName).eqCommutative (second.derivative variableName) = true ∧
    first.simplify.eqCommutative second.simplify = true := by
  have both := Expr.eqCommutative_iff_matches.mp equal
  refine ⟨fun value => ⟨both.evaluate_eq_ok, both.symm.evaluate_eq_ok⟩, ?_, ?_⟩
  · exact Expr.eqCommutative_iff_matches.mpr (both.derivative variableName)
  · exact Expr.eqCommutative_iff_matches.mpr both.simplify

/-- The product `(x + 0 * y) * (x - 1)`. -/
def weightedProduct : Expr ℚ :=
  .mul (.add (.var "x") (.mul (.num 0) (.var "y"))) (.sub (.var "x") (.num 1))

/-- The product `(x - 1) * (y * 0 + x)`, crossed in all sums and products. -/
def crossedWeightedProduct : Expr ℚ :=
  .mul (.sub (.var "x") (.num 1)) (.add (.mul (.var "y") (.num 0)) (.var "x"))

theorem eqCommutative_respected_rationals :
    weightedProduct.eqCommutative crossedWeightedProduct = true ∧
      (weightedProduct.evaluate ((NameMap.empty.insert "x" 3).insert "y" 5) = .ok 6 ↔
        crossedWeightedProduct.evaluate ((NameMap.empty.insert "x" 3).insert "y" 5) = .ok 6) ∧
      (weightedProduct.derivative "x").eqCommutative
        (crossedWeightedProduct.derivative "x") = true ∧
      weightedProduct.simplify.eqCommutative crossedWeightedProduct.simplify = true := by
  have equal : weightedProduct.eqCommutative crossedWeightedProduct = true := by decide +kernel
  obtain ⟨values, derivatives, simplified⟩ := eqCommutative_respected weightedProduct
    crossedWeightedProduct equal ((NameMap.empty.insert "x" 3).insert "y" 5) "x"
  exact ⟨equal, values 6, derivatives, simplified⟩

end Calculator
