import Calculator.Proofs.Expr.Evaluation
import Calculator.Proofs.Number.Equality
import Calculator.Proofs.Simplification.Reduction

/-!
# Simplification of constants

Folding is tried before all other rules, so an expression without variables that has a value
is simplified to that very value, by folding alone and over any arithmetic. One without a
value divides by zero somewhere. That division is still there after simplification, unless it
was a factor next to zero.
-/

set_option autoImplicit false

namespace Calculator

variable {α : Type} [Arithmetic α]

namespace Expr

variable {operator : Operator} {lhs rhs : Expr α} {context : Context α}

/-- A division by a number equal to zero is part of the expression. -/
def DividesByZero (expr : Expr α) : Prop :=
  ∃ dividend divisor, (divisor == 0) = true ∧ binary .div dividend (num divisor) ∈ expr.postOrder

private theorem not_dividesByZero_num (value : α) : ¬(num value).DividesByZero := by
  simp [DividesByZero, postOrder_num]

private theorem DividesByZero.of_operand (divides : lhs.DividesByZero ∨ rhs.DividesByZero) :
    (binary operator lhs rhs).DividesByZero := by
  rcases divides with ⟨dividend, divisor, isZero, member⟩ | ⟨dividend, divisor, isZero, member⟩
  · exact ⟨dividend, divisor, isZero, by simp [postOrder_binary, member]⟩
  · exact ⟨dividend, divisor, isZero, by simp [postOrder_binary, member]⟩

/-! ## Constants with a value -/

private theorem rewrites_binary_of_result {lhsValue rhsValue value : α}
    (lhsNumber : lhs.simplify = num lhsValue) (rhsNumber : rhs.simplify = num rhsValue)
    (result : operator.fold? lhsValue rhsValue = some value) :
    (binary operator lhs rhs).rewrites = lhs.rewrites ++ (rhs.rewrites ++
      [⟨.constantFold, binary operator (num lhsValue) (num rhsValue), num value⟩]) := by
  rw [rewrites, lhsNumber, rhsNumber, Rule.firstRewrite?_nums result]
  rfl

private theorem simplify_binary_of_result {lhsValue rhsValue value : α}
    (lhsNumber : lhs.simplify = num lhsValue) (rhsNumber : rhs.simplify = num rhsValue)
    (result : operator.fold? lhsValue rhsValue = some value) :
    (binary operator lhs rhs).simplify = num value := by
  rw [simplify_binary, lhsNumber, rhsNumber, rewriteRoot_nums result]

private theorem simplify_of_evaluate {expr : Expr α} (constant : expr.variableNames = [])
    {value : α} (evaluated : expr.evaluate context = .ok value) :
    expr.simplify = num value ∧ ∀ rewrite ∈ expr.rewrites, rewrite.rule = .constantFold := by
  induction expr generalizing value with
  | num number =>
      cases evaluated
      exact ⟨rfl, by simp [rewrites]⟩
  | var name => exact absurd constant (variableNames_var_ne_nil name)
  | binary operator lhs rhs lhsIH rhsIH =>
      obtain ⟨lhsConstant, rhsConstant⟩ := variableNames_binary_eq_nil.mp constant
      obtain ⟨lhsValue, rhsValue, lhsEvaluated, rhsEvaluated, result⟩ :=
        evaluate_binary_eq_ok.mp evaluated
      obtain ⟨lhsNumber, lhsFolded⟩ := lhsIH lhsConstant lhsEvaluated
      obtain ⟨rhsNumber, rhsFolded⟩ := rhsIH rhsConstant rhsEvaluated
      have folds := Operator.fold?_eq_some_iff.mpr result
      refine ⟨simplify_binary_of_result lhsNumber rhsNumber folds, ?_⟩
      intro rewrite member
      rw [rewrites_binary_of_result lhsNumber rhsNumber folds] at member
      simp only [List.mem_append, List.mem_singleton] at member
      rcases member with inLhs | inRhs | rfl
      · exact lhsFolded rewrite inLhs
      · exact rhsFolded rewrite inRhs
      · rfl

/-! ## Constants without a value -/

private theorem evaluate_error_of_constant {expr : Expr α} (constant : expr.variableNames = [])
    {error : EvalError} (failed : expr.evaluate context = .error error) :
    error = .divisionByZero := by
  induction expr with
  | num => cases failed
  | var name => exact absurd constant (variableNames_var_ne_nil name)
  | binary operator lhs rhs lhsIH rhsIH =>
      obtain ⟨lhsConstant, rhsConstant⟩ := variableNames_binary_eq_nil.mp constant
      rcases evaluate_binary_eq_error.mp failed with
        lhsFailed | ⟨_, _, rhsFailed⟩ | ⟨_, _, _, _, noResult⟩
      · exact lhsIH lhsConstant lhsFailed
      · exact rhsIH rhsConstant rhsFailed
      · exact (Operator.result_eq_error.mp noResult).2.2

/-- What is left of a constant without a value: a number, where a factor next to zero was
dropped, or a division by zero that no rule applies to. -/
inductive Remains (expr : Expr α) : Prop where
  | number {value : α} (simplified : expr.simplify = num value)
      (dropped : ∃ rewrite ∈ expr.rewrites, rewrite.rule = .multiplyZero)
  | division (divides : expr.simplify.DividesByZero)

/-- No rule but `multiplyZero` removes an operand that is not a number. -/
theorem DividesByZero.of_makes {rule : Rule} {output : Expr α}
    (divides : lhs.DividesByZero ∨ rhs.DividesByZero)
    (makes : Rule.Makes rule (binary operator lhs rhs) output) :
    output.DividesByZero ∨ rule = .multiplyZero ∧ ∃ value, output = num value := by
  cases makes with
  | result =>
      rcases divides with divides | divides <;> exact absurd divides (not_dividesByZero_num _)
  | lhs => exact .inl (divides.resolve_right (not_dividesByZero_num _))
  | rhs => exact .inl (divides.resolve_left (not_dividesByZero_num _))
  | zero => exact .inr ⟨rfl, _, rfl⟩

private theorem Remains.of_division
    (divides : lhs.simplify.DividesByZero ∨ rhs.simplify.DividesByZero) :
    Remains (binary operator lhs rhs) := by
  have simplified := simplify_binary operator lhs rhs
  rw [rewriteRoot] at simplified
  cases found : Rule.firstRewrite? Rule.all (binary operator lhs.simplify rhs.simplify) with
  | none =>
      rw [found] at simplified
      exact .division (simplified ▸ DividesByZero.of_operand divides)
  | some rewrite =>
      rw [found] at simplified
      have makes := Rule.makes_of_rewrite? (Rule.rewrite?_of_firstRewrite? found)
      rcases DividesByZero.of_makes divides makes with divides | ⟨isMultiplyZero, value, isNumber⟩
      · exact .division (simplified ▸ divides)
      · refine .number (simplified.trans isNumber) ⟨rewrite, ?_, isMultiplyZero⟩
        simp [rewrites, found]

private theorem Remains.dropped_of_number {expr : Expr α} (remains : Remains expr) {value : α}
    (number : expr.simplify = num value) :
    ∃ rewrite ∈ expr.rewrites, rewrite.rule = .multiplyZero := by
  cases remains with
  | number _ dropped => exact dropped
  | division divides =>
      rw [number] at divides
      exact absurd divides (not_dividesByZero_num value)

private theorem Remains.number_or_division {expr : Expr α} (remains : Remains expr) :
    (∃ value, expr.simplify = num value) ∨ expr.simplify.DividesByZero := by
  cases remains with
  | number simplified => exact .inl ⟨_, simplified⟩
  | division divides => exact .inr divides

/-- No rule applies to a division by a number equal to zero. -/
theorem dividesByZero_of_noResult (apart : ZeroOneApart α) {lhsValue rhsValue : α}
    (lhsNumber : lhs.simplify = num lhsValue) (rhsNumber : rhs.simplify = num rhsValue)
    (noResult : operator.fold? lhsValue rhsValue = none) :
    (binary operator lhs rhs).simplify.DividesByZero := by
  obtain ⟨rfl, isZero⟩ := Operator.fold?_eq_none_iff.mp noResult
  have notOne : (num rhsValue).isNum 1 = false := apart rhsValue isZero
  have unchanged : (binary .div (num lhsValue) (num rhsValue)).rewriteRoot =
      binary .div (num lhsValue) (num rhsValue) := by
    simp [rewriteRoot, Rule.firstRewrite?, Rule.all, Rule.rewrite?, noResult, notOne]
  rw [simplify_binary, lhsNumber, rhsNumber, unchanged]
  exact ⟨num lhsValue, rhsValue, isZero, by simp [postOrder_binary]⟩

private theorem simplify_constant (apart : ZeroOneApart α) {expr : Expr α}
    (constant : expr.variableNames = []) :
    (∃ value, expr.simplify = num value) ∨ expr.simplify.DividesByZero := by
  induction expr with
  | num value => exact .inl ⟨value, rfl⟩
  | var name => exact absurd constant (variableNames_var_ne_nil name)
  | binary operator lhs rhs lhsIH rhsIH =>
      obtain ⟨lhsConstant, rhsConstant⟩ := variableNames_binary_eq_nil.mp constant
      rcases lhsIH lhsConstant with ⟨lhsValue, lhsNumber⟩ | divides
      case inr => exact (Remains.of_division (.inl divides)).number_or_division
      rcases rhsIH rhsConstant with ⟨rhsValue, rhsNumber⟩ | divides
      case inr => exact (Remains.of_division (.inr divides)).number_or_division
      cases result : operator.fold? lhsValue rhsValue with
      | none => exact .inr (dividesByZero_of_noResult apart lhsNumber rhsNumber result)
      | some value => exact .inl ⟨value, simplify_binary_of_result lhsNumber rhsNumber result⟩

private theorem remains_of_error (apart : ZeroOneApart α) {expr : Expr α}
    (constant : expr.variableNames = []) {error : EvalError}
    (failed : expr.evaluate context = .error error) : Remains expr := by
  induction expr with
  | num => cases failed
  | var name => exact absurd constant (variableNames_var_ne_nil name)
  | binary operator lhs rhs lhsIH rhsIH =>
      obtain ⟨lhsConstant, rhsConstant⟩ := variableNames_binary_eq_nil.mp constant
      rcases simplify_constant apart lhsConstant with ⟨lhsValue, lhsNumber⟩ | divides
      case inr => exact .of_division (.inl divides)
      rcases simplify_constant apart rhsConstant with ⟨rhsValue, rhsNumber⟩ | divides
      case inr => exact .of_division (.inr divides)
      cases result : operator.fold? lhsValue rhsValue with
      | none => exact .division (dividesByZero_of_noResult apart lhsNumber rhsNumber result)
      | some value =>
          refine .number (simplify_binary_of_result lhsNumber rhsNumber result) ?_
          rw [rewrites_binary_of_result lhsNumber rhsNumber result]
          -- The operation itself has a result, so it is an operand that failed.
          rcases evaluate_binary_eq_error.mp failed with
            lhsFailed | ⟨_, _, rhsFailed⟩ | ⟨first, second, lhsEvaluated, rhsEvaluated, noResult⟩
          · obtain ⟨rewrite, member, dropped⟩ :=
              (lhsIH lhsConstant lhsFailed).dropped_of_number lhsNumber
            exact ⟨rewrite, List.mem_append_left _ member, dropped⟩
          · obtain ⟨rewrite, member, dropped⟩ :=
              (rhsIH rhsConstant rhsFailed).dropped_of_number rhsNumber
            exact ⟨rewrite, by simp [member], dropped⟩
          · have lhsSame := (simplify_of_evaluate lhsConstant lhsEvaluated).1
            have rhsSame := (simplify_of_evaluate rhsConstant rhsEvaluated).1
            cases lhsNumber.symm.trans lhsSame
            cases rhsNumber.symm.trans rhsSame
            cases noResult.symm.trans (Operator.fold?_eq_some_iff.mp result)

end Expr

/-- A constant that has a value is folded to it, and by folding alone. One that has none divides
by zero, and so does what it is simplified to, unless a product with zero was dropped and a
number is left. The latter takes it that no divisor equal to zero passes for one, as `divideOne`
would drop it. -/
theorem simplify_constant_evaluates {α : Type} [Arithmetic α] (context : Context α)
    (expr : Expr α) (constant : expr.variableNames = []) :
    (∀ value, expr.evaluate context = .ok value →
      expr.simplify = .num value ∧ expr.simplifyWithSteps.1 = .num value ∧
        ∀ step ∈ expr.simplifyWithSteps.2, step = .constantFold) ∧
    ∀ error, expr.evaluate context = .error error →
      error = .divisionByZero ∧
        (ZeroOneApart α →
          ((∃ value, expr.simplify = .num value) ∧ .multiplyZero ∈ expr.simplifyWithSteps.2) ∨
            expr.simplify.DividesByZero) := by
  rw [Expr.simplifyWithSteps_eq]
  constructor
  · intro value evaluated
    obtain ⟨simplified, folded⟩ := Expr.simplify_of_evaluate constant evaluated
    refine ⟨simplified, simplified, ?_⟩
    intro step member
    obtain ⟨rewrite, recorded, rfl⟩ := List.mem_map.mp member
    exact folded rewrite recorded
  · intro error failed
    refine ⟨Expr.evaluate_error_of_constant constant failed, ?_⟩
    intro apart
    cases Expr.remains_of_error apart constant failed with
    | number simplified dropped =>
        obtain ⟨rewrite, recorded, isMultiplyZero⟩ := dropped
        exact .inl ⟨⟨_, simplified⟩, List.mem_map.mpr ⟨rewrite, recorded, isMultiplyZero⟩⟩
    | division divides => exact .inr divides

-- Where all numbers are equal, a division by zero is dropped as one by one.
example :
    letI : Arithmetic Unit :=
      { zero := (), one := (), add _ _ := (), sub _ _ := (), mul _ _ := (), div _ _ := (),
        neg _ := (), beq _ _ := true }
    let quotient : Expr Unit := .div (.num ()) (.num ())
    quotient.evaluate .empty = .error .divisionByZero ∧
      quotient.simplifyWithSteps = (.num (), [.divideOne]) :=
  ⟨rfl, rfl⟩

/-- A product of zero and minus one, which is minus zero. -/
def negativeProduct : Expr Float :=
  .mul (.sub (.num 0.5) (.num 0.5)) (.num (-1))

/-- A quotient by zero, dropped as a factor next to zero. -/
def vanishingQuotient : Expr Float :=
  .add (.num 2) (.mul (.div (.num 1) (.num 0)) (.num 0))

/-- A quotient by minus zero, as a factor next to three. -/
def remainingQuotient : Expr Float :=
  .mul (.num 3) (.div (.num 1) (.mul (.num 0) (.num (-1))))

theorem simplify_constant_evaluates_doubles :
    (negativeProduct.evaluate .empty = .ok (-0.0) ∧ negativeProduct.simplify = .num (-0.0) ∧
      ∀ step ∈ negativeProduct.simplifyWithSteps.2, step = .constantFold) ∧
    (vanishingQuotient.evaluate .empty = .error .divisionByZero ∧
      ((∃ value, vanishingQuotient.simplify = .num value) ∧
          .multiplyZero ∈ vanishingQuotient.simplifyWithSteps.2 ∨
        vanishingQuotient.simplify.DividesByZero)) ∧
    remainingQuotient.evaluate .empty = .error .divisionByZero ∧
      ((∃ value, remainingQuotient.simplify = .num value) ∧
          .multiplyZero ∈ remainingQuotient.simplifyWithSteps.2 ∨
        remainingQuotient.simplify.DividesByZero) := by
  have negative : negativeProduct.evaluate .empty = .ok (-0.0) := rfl
  have vanishing : vanishingQuotient.evaluate .empty = .error .divisionByZero := rfl
  have remaining : remainingQuotient.evaluate .empty = .error .divisionByZero := rfl
  have folded :=
    (simplify_constant_evaluates .empty negativeProduct (by decide +kernel)).1 _ negative
  have vanished :=
    (simplify_constant_evaluates .empty vanishingQuotient (by decide +kernel)).2 _ vanishing
  have remained :=
    (simplify_constant_evaluates .empty remainingQuotient (by decide +kernel)).2 _ remaining
  exact ⟨⟨negative, folded.1, folded.2.2⟩, ⟨vanishing, vanished.2 zeroOneApart_float⟩,
    remaining, remained.2 zeroOneApart_float⟩

end Calculator
