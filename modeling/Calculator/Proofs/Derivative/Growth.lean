import Mathlib.Algebra.Field.Rat
import Mathlib.Tactic.Ring
import Calculator.Derivative
import Calculator.Proofs.Expr.PostOrder
import Calculator.Proofs.Number.Field
import Calculator.Proofs.Number.Rational
import Calculator.Proofs.Parser.RoundTrip

/-!
# How much a derivative grows

The derivative of an operation repeats its operands next to their derivatives, up to three
times. What the copies add at one node is still bounded by the depth of the expression: a
derivative is at most three times as deep, and a node costs at most three nodes for each
level. Chains of quotients are as deep as that.
-/

set_option autoImplicit false

namespace Calculator

variable {α : Type} [Zero α] [One α]

namespace Expr

/-! ## One operation -/

section Operations

variable (variableName : String) (operator : Operator) (lhs rhs : Expr α)

/-- The rules put at most three operations on top of the operands and of their derivatives. -/
theorem depth_derivative_binary_le :
    ((binary operator lhs rhs).derivative variableName).depth ≤
      3 + max (max (lhs.derivative variableName).depth (rhs.derivative variableName).depth)
        (max lhs.depth rhs.depth) := by
  cases operator <;> simp only [derivative, add, sub, mul, div, depth] <;> omega

/-- The rule for quotients makes the most copies: the dividend once and the divisor three
times. -/
theorem size_derivative_binary_le :
    ((binary operator lhs rhs).derivative variableName).size ≤
      (lhs.derivative variableName).size + (rhs.derivative variableName).size +
        (lhs.size + 3 * rhs.size + 5) := by
  cases operator <;> simp only [derivative, add, sub, mul, div, size] <;> omega

private theorem variableNames_derivative_binary_subset {name : String}
    (member : name ∈ ((binary operator lhs rhs).derivative variableName).variableNames) :
    name ∈ (lhs.derivative variableName).variableNames ∨
      name ∈ (rhs.derivative variableName).variableNames ∨
      name ∈ lhs.variableNames ∨ name ∈ rhs.variableNames := by
  cases operator <;>
    simp only [derivative, add, sub, mul, div, mem_variableNames_binary] at member <;> tauto

end Operations

/-- The copies at one node are at most three nodes for each level below it and three for each
node of the operation. -/
theorem size_add_copies_le {lhs rhs lhsDepth rhsDepth lhsSlope rhsSlope : Nat}
    (lhsPos : 0 < lhs) (lhsBound : lhsSlope ≤ 3 * lhs * lhsDepth)
    (rhsBound : rhsSlope ≤ 3 * rhs * rhsDepth) :
    lhsSlope + rhsSlope + (lhs + 3 * rhs + 5) ≤
      3 * (lhs + rhs + 1) * (1 + max lhsDepth rhsDepth) := by
  obtain ⟨deepest, deepest_eq⟩ : ∃ deepest, deepest = max lhsDepth rhsDepth := ⟨_, rfl⟩
  have lhsWithin : 3 * lhs * lhsDepth ≤ 3 * lhs * deepest :=
    Nat.mul_le_mul_left _ (by omega)
  have rhsWithin : 3 * rhs * rhsDepth ≤ 3 * rhs * deepest :=
    Nat.mul_le_mul_left _ (by omega)
  calc lhsSlope + rhsSlope + (lhs + 3 * rhs + 5)
    _ ≤ 3 * lhs * deepest + 3 * rhs * deepest + (3 * deepest + 3 * (lhs + rhs + 1)) := by omega
    _ = 3 * (lhs + rhs + 1) * (1 + deepest) := by ring
    _ = 3 * (lhs + rhs + 1) * (1 + max lhsDepth rhsDepth) := by rw [deepest_eq]

/-! ## A whole expression -/

variable (variableName : String) (expr : Expr α)

private theorem depth_derivative_le :
    (expr.derivative variableName).depth + 2 ≤ 3 * expr.depth := by
  induction expr with
  | num | var => exact Nat.le_refl 3
  | binary operator lhs rhs lhsIH rhsIH =>
      have step := depth_derivative_binary_le variableName operator lhs rhs
      rw [depth]
      omega

private theorem size_derivative_le :
    (expr.derivative variableName).size ≤ 3 * expr.size * expr.depth := by
  induction expr with
  | num | var => exact Nat.le_add_left 1 2
  | binary operator lhs rhs lhsIH rhsIH =>
      apply Nat.le_trans (size_derivative_binary_le variableName operator lhs rhs)
      exact size_add_copies_le lhs.size_pos lhsIH rhsIH

private theorem variableNames_derivative_subset :
    (expr.derivative variableName).variableNames ⊆ expr.variableNames := by
  intro name member
  induction expr with
  | num | var => exact absurd member not_mem_variableNames_num
  | binary operator lhs rhs lhsIH rhsIH =>
      apply mem_variableNames_binary.mpr
      rcases variableNames_derivative_binary_subset variableName operator lhs rhs member with
        inLhsSlope | inRhsSlope | inLhs | inRhs
      · exact .inl (lhsIH inLhsSlope)
      · exact .inr (rhsIH inRhsSlope)
      · exact .inl inLhs
      · exact .inr inRhs

end Expr

/-- A derivative is less than three times as deep as its expression, has at most three nodes
for each node and level of it, and no other variables. So the derivative of an expression that
was read is not deeper than the limit of nesting allows. -/
theorem derivative_growth_bounded [Neg α] [Numeral α] (variableName : String) (expr : Expr α) :
    (expr.derivative variableName).depth ≤ 3 * expr.depth - 2 ∧
      (expr.derivative variableName).nodeCount ≤ 3 * expr.nodeCount * expr.depth ∧
      (expr.derivative variableName).variableNames ⊆ expr.variableNames ∧
      ∀ source, Expr.ofText source = .ok expr → (expr.derivative variableName).depth ≤ 385 := by
  have depth := expr.depth_derivative_le variableName
  refine ⟨by omega, ?_, expr.variableNames_derivative_subset variableName, ?_⟩
  · rw [Expr.nodeCount_eq_size, Expr.nodeCount_eq_size]
    exact expr.size_derivative_le variableName
  · intro source read
    have shallow : expr.depth ≤ 128 + 1 := Expr.depth_le_of_ofText read
    omega

/-! ## Chains of quotients -/

/-- A variable divided by itself `levels` times. -/
def nestedQuotient : Nat → Expr α
  | 0 => .var "x"
  | levels + 1 => .div (nestedQuotient levels) (.var "x")

omit [Zero α] [One α] in
private theorem depth_nestedQuotient (levels : Nat) :
    (nestedQuotient levels : Expr α).depth = levels + 1 := by
  induction levels with
  | zero => rfl
  | succ levels ih =>
      simp only [nestedQuotient, Expr.div, Expr.depth, ih]
      omega

/-- The bound of the depth is met by expressions of each depth. -/
theorem depth_derivative_nestedQuotient (levels : Nat) :
    ((nestedQuotient levels : Expr α).derivative "x").depth =
      3 * (nestedQuotient levels : Expr α).depth - 2 := by
  rw [depth_nestedQuotient]
  induction levels with
  | zero => rfl
  | succ levels ih =>
      simp only [nestedQuotient, Expr.div, Expr.derivative, Expr.sub, Expr.mul, Expr.depth, ih,
        depth_nestedQuotient]
      omega

omit [Zero α] [One α] in
private theorem nestedQuotient_spellable [Numeral α] (levels : Nat) :
    (nestedQuotient levels : Expr α).Spellable := by
  induction levels with
  | zero => exact .var (by decide)
  | succ levels ih => exact .binary ih (.var (by decide))

theorem derivative_growth_bounded_quotients :
    Expr.ofText (nestedQuotient 128 : Expr ℚ).parenthesized = .ok (nestedQuotient 128 : Expr ℚ) ∧
      ((nestedQuotient 128 : Expr ℚ).derivative "x").depth ≤ 385 ∧
      385 ≤ ((nestedQuotient 128 : Expr ℚ).derivative "x").depth := by
  obtain ⟨derivation, writes⟩ :=
    (nestedQuotient_spellable 128).exists_writes textsReadBack_rat 0
  have shallow : (nestedQuotient 128 : Expr ℚ).depth ≤ nestingLimit + 1 := by
    rw [depth_nestedQuotient]
    exact Nat.le_refl 129
  have read := writes.ofText_eq shallow
  obtain ⟨-, -, -, limited⟩ := derivative_growth_bounded "x" (nestedQuotient 128 : Expr ℚ)
  refine ⟨read, limited _ read, ?_⟩
  rw [depth_derivative_nestedQuotient, depth_nestedQuotient]

end Calculator
