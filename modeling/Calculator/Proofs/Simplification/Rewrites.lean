import Calculator.Evaluation
import Calculator.Simplification

/-!
# What simplification rewrites

The result of simplification does not depend on what is collected, and every collector
is told the same rewritings in the same order.
-/

set_option autoImplicit false

namespace Calculator

variable {α : Type} [Arithmetic α]

namespace Operator

variable {operator : Operator} {lhs rhs : α}

/-- Numbers are folded to what the operation on them evaluates to. -/
theorem fold?_eq_some_iff {value : α} :
    operator.fold? lhs rhs = some value ↔ operator.result lhs rhs = .ok value := by
  cases operator with
  | add | sub | mul => simp [fold?, result]
  | div => cases isZero : rhs == 0 <;> simp [fold?, result, bne, isZero]

theorem fold?_eq_none_iff :
    operator.fold? lhs rhs = none ↔ operator = .div ∧ (rhs == 0) = true := by
  cases operator <;> simp [fold?, bne]

end Operator

namespace Rule

theorem rewrite?_of_firstRewrite? {rules : List Rule} {node : Expr α} {rewrite : Rewrite α}
    (found : firstRewrite? rules node = some rewrite) :
    rewrite.rule.rewrite? node = some rewrite.output := by
  obtain ⟨rule, -, applied⟩ := List.exists_of_findSome?_eq_some found
  obtain ⟨output, rewritten, rfl⟩ := Option.map_eq_some_iff.mp applied
  exact rewritten

/-- No rule is left out of the list of all. -/
theorem mem_all (rule : Rule) : rule ∈ all := by
  cases rule <;> decide

theorem firstRewrite?_eq_none_iff {node : Expr α} :
    firstRewrite? all node = none ↔ ∀ rule : Rule, rule.rewrite? node = none := by
  simp [firstRewrite?, mem_all]

/-- An operation on two numbers that has a result is folded before any other rule is tried. -/
theorem firstRewrite?_nums {operator : Operator} {lhs rhs value : α}
    (result : operator.fold? lhs rhs = some value) :
    firstRewrite? all (.binary operator (.num lhs) (.num rhs)) =
      some ⟨.constantFold, .binary operator (.num lhs) (.num rhs), .num value⟩ := by
  simp [firstRewrite?, all, rewrite?, result]

end Rule

namespace Expr

/-- A node after the first rule that applies to it, if one does. -/
def rewriteRoot (node : Expr α) : Expr α :=
  ((Rule.firstRewrite? Rule.all node).map Rewrite.output).getD node

theorem rewriteRoot_nums {operator : Operator} {lhs rhs value : α}
    (result : operator.fold? lhs rhs = some value) :
    (binary operator (num lhs) (num rhs)).rewriteRoot = num value := by
  rw [rewriteRoot, Rule.firstRewrite?_nums result]
  rfl

@[simp]
theorem simplify_num (value : α) : (num value).simplify = num value := rfl

theorem simplify_binary (operator : Operator) (lhs rhs : Expr α) :
    (binary operator lhs rhs).simplify =
      (binary operator lhs.simplify rhs.simplify).rewriteRoot := by
  have operand (expr : Expr α) : expr.simplifyWith () = (expr.simplify, ()) := rfl
  rw [simplify, simplifyWith, operand lhs]
  simp only [operand rhs, rewriteWith, rewriteRoot]
  cases Rule.firstRewrite? Rule.all (binary operator lhs.simplify rhs.simplify) <;> rfl

theorem simplify_binary_congr (operator : Operator) {lhs newLhs rhs newRhs : Expr α}
    (lhsSame : newLhs.simplify = lhs.simplify) (rhsSame : newRhs.simplify = rhs.simplify) :
    (binary operator newLhs newRhs).simplify = (binary operator lhs rhs).simplify := by
  rw [simplify_binary, simplify_binary, lhsSame, rhsSame]

/-- The rewritings of an expression: those of its operands, then the one of its root. -/
def rewrites : Expr α → List (Rewrite α)
  | .num _ | .var _ => []
  | .binary operator lhs rhs =>
      lhs.rewrites ++ (rhs.rewrites ++
        (Rule.firstRewrite? Rule.all (binary operator lhs.simplify rhs.simplify)).toList)

theorem simplifyWith_eq {κ : Type} [Collector κ α] (expr : Expr α) (collected : κ) :
    expr.simplifyWith collected =
      (expr.simplify, expr.rewrites.foldl Collector.push collected) := by
  induction expr generalizing collected with
  | num | var => rfl
  | binary operator lhs rhs lhsIH rhsIH =>
      simp only [simplifyWith, lhsIH, rhsIH, simplify_binary, rewrites, rewriteWith, rewriteRoot,
        List.foldl_append]
      cases Rule.firstRewrite? Rule.all (binary operator lhs.simplify rhs.simplify) <;> rfl

omit [Arithmetic α] in
theorem toList_foldl_push (rewritten : List (Rewrite α)) (collected : Array Rule) :
    (rewritten.foldl Collector.push collected).toList =
      collected.toList ++ rewritten.map Rewrite.rule := by
  induction rewritten generalizing collected with
  | nil => rw [List.foldl_nil, List.map_nil, List.append_nil]
  | cons rewrite rest ih =>
      rw [List.foldl_cons, ih]
      simp [Collector.push]

omit [Arithmetic α] in
private theorem toList_foldl_push_rewrite (rewritten : List (Rewrite α))
    (collected : Array (Rewrite α)) :
    (rewritten.foldl Collector.push collected).toList = collected.toList ++ rewritten := by
  induction rewritten generalizing collected with
  | nil => rw [List.foldl_nil, List.append_nil]
  | cons rewrite rest ih =>
      rw [List.foldl_cons, ih]
      simp [Collector.push]

theorem simplifyWithRewrites_eq (expr : Expr α) :
    expr.simplifyWithRewrites = (expr.simplify, expr.rewrites) := by
  simp only [simplifyWithRewrites, simplifyWith_eq, toList_foldl_push_rewrite]
  rfl

/-- The recorded steps are the rules of the rewritings, and recording changes no result. -/
theorem simplifyWithSteps_eq (expr : Expr α) :
    expr.simplifyWithSteps = (expr.simplify, expr.rewrites.map Rewrite.rule) := by
  simp only [simplifyWithSteps, simplifyWith_eq, toList_foldl_push]
  rfl

end Expr

end Calculator
