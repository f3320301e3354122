import Calculator.Proofs.Expr.PostOrder
import Calculator.Proofs.Simplification.Rewrites

/-!
# Rewriting at any node

Simplification applies its rules in one order. Here any rule may rewrite any node, in any
order. Each rewriting removes an operation and one of its operands, so there is only a
limited number of them, and each order comes to an expression to which no rule applies.
-/

set_option autoImplicit false

namespace Calculator

variable {α : Type} [Arithmetic α]

namespace Rule

/-- What a rule may make of an operation: its result, an operand next to a number, or zero. -/
inductive Makes : Rule → Expr α → Expr α → Prop where
  | result {operator : Operator} {lhs rhs value : α} :
      operator.fold? lhs rhs = some value →
      Makes .constantFold (.binary operator (.num lhs) (.num rhs)) (.num value)
  | lhs (rule : Rule) (operator : Operator) (lhs : Expr α) (unit : α) :
      Makes rule (.binary operator lhs (.num unit)) lhs
  | rhs (rule : Rule) (operator : Operator) (unit : α) (rhs : Expr α) :
      Makes rule (.binary operator (.num unit) rhs) rhs
  | zero (lhs rhs : Expr α) : Makes .multiplyZero (.binary .mul lhs rhs) (.num 0)

private theorem exists_eq_num_of_isNum {unit : α} {expr : Expr α}
    (isUnit : expr.isNum unit = true) : ∃ value, expr = .num value := by
  cases expr with
  | num value => exact ⟨value, rfl⟩
  | var | binary => cases isUnit

private theorem makes_lhs {rule : Rule} {operator : Operator} {unit : α} {lhs rhs : Expr α}
    (isUnit : rhs.isNum unit = true) : Makes rule (.binary operator lhs rhs) lhs := by
  obtain ⟨value, rfl⟩ := exists_eq_num_of_isNum isUnit
  exact .lhs rule operator lhs value

private theorem makes_operand {rule : Rule} {operator : Operator} {unit : α}
    {lhs rhs output : Expr α} (rewritten : (if rhs.isNum unit then some lhs
      else if lhs.isNum unit then some rhs else none) = some output) :
    Makes rule (.binary operator lhs rhs) output := by
  split at rewritten
  next isUnit =>
    cases rewritten
    exact makes_lhs isUnit
  next =>
    obtain ⟨isUnit, same⟩ := Option.ite_none_right_eq_some.mp rewritten
    cases same
    obtain ⟨value, rfl⟩ := exists_eq_num_of_isNum isUnit
    exact .rhs rule operator value rhs

theorem makes_of_rewrite? {rule : Rule} {node output : Expr α}
    (rewritten : rule.rewrite? node = some output) : Makes rule node output := by
  unfold rewrite? at rewritten
  split at rewritten
  case h_1 =>
    obtain ⟨value, folded, rfl⟩ := Option.map_eq_some_iff.mp rewritten
    exact .result folded
  case h_2 | h_5 => exact makes_operand rewritten
  case h_3 | h_6 =>
    obtain ⟨isUnit, same⟩ := Option.ite_none_right_eq_some.mp rewritten
    cases same
    exact makes_lhs isUnit
  case h_4 lhs rhs =>
    obtain ⟨-, same⟩ := Option.ite_none_right_eq_some.mp rewritten
    cases same
    exact .zero lhs rhs
  case h_7 => cases rewritten

/-- A rule that applies to an operation leaves a number or one of the operands. -/
theorem rewrite?_eq_some {rule : Rule} {node output : Expr α}
    (rewritten : rule.rewrite? node = some output) :
    ∃ operator lhs rhs, node = .binary operator lhs rhs ∧
      ((∃ value, output = .num value) ∨ output = lhs ∨ output = rhs) := by
  cases makes_of_rewrite? rewritten with
  | result => exact ⟨_, _, _, rfl, .inl ⟨_, rfl⟩⟩
  | lhs => exact ⟨_, _, _, rfl, .inr (.inl rfl)⟩
  | rhs => exact ⟨_, _, _, rfl, .inr (.inr rfl)⟩
  | zero => exact ⟨_, _, _, rfl, .inl ⟨0, rfl⟩⟩

end Rule

namespace Expr

/-- One rewriting of one node by any of the rules. -/
inductive RewritesTo : Expr α → Expr α → Prop where
  | node {rule : Rule} {node output : Expr α} :
      rule.rewrite? node = some output → RewritesTo node output
  | lhs {lhs newLhs : Expr α} (operator : Operator) (rhs : Expr α) :
      RewritesTo lhs newLhs →
      RewritesTo (.binary operator lhs rhs) (.binary operator newLhs rhs)
  | rhs {rhs newRhs : Expr α} (operator : Operator) (lhs : Expr α) :
      RewritesTo rhs newRhs →
      RewritesTo (.binary operator lhs rhs) (.binary operator lhs newRhs)

/-- A number of rewritings, one after the other. -/
inductive RewritesIn : Nat → Expr α → Expr α → Prop where
  | refl (expr : Expr α) : RewritesIn 0 expr expr
  | step {count : Nat} {first second last : Expr α} :
      RewritesTo first second → RewritesIn count second last → RewritesIn (count + 1) first last

/-- No rule applies to any node. -/
def Irreducible (expr : Expr α) : Prop :=
  ∀ next, ¬ RewritesTo expr next

private theorem RewritesTo.size_add_two_le {first second : Expr α}
    (rewrites : RewritesTo first second) : second.size + 2 ≤ first.size := by
  induction rewrites with
  | node rewritten =>
      obtain ⟨operator, lhs, rhs, rfl, left⟩ := Rule.rewrite?_eq_some rewritten
      have lhsPos := lhs.size_pos
      have rhsPos := rhs.size_pos
      rcases left with ⟨value, rfl⟩ | rfl | rfl <;> simp only [size] <;> omega
  | lhs operator rhs _ ih | rhs operator lhs _ ih =>
      simp only [size]
      omega

theorem RewritesIn.size_add_le {count : Nat} {first last : Expr α}
    (rewrites : RewritesIn count first last) : last.size + 2 * count ≤ first.size := by
  induction rewrites with
  | refl => omega
  | step rewritten _ ih =>
      have smaller := rewritten.size_add_two_le
      omega

theorem RewritesIn.count_le {count : Nat} {first last : Expr α}
    (rewrites : RewritesIn count first last) : count ≤ (first.nodeCount - 1) / 2 := by
  have bound := rewrites.size_add_le
  have lastPos := last.size_pos
  rw [nodeCount_eq_size]
  omega

theorem irreducible_num (value : α) : Irreducible (num value) := by
  intro next rewrites
  cases rewrites with
  | node rewritten =>
      obtain ⟨_, _, _, same, _⟩ := Rule.rewrite?_eq_some rewritten
      cases same

theorem Irreducible.operands {operator : Operator} {lhs rhs : Expr α}
    (irreducible : Irreducible (binary operator lhs rhs)) : Irreducible lhs ∧ Irreducible rhs := by
  constructor
  · intro next rewrites
    exact irreducible _ (.lhs operator rhs rewrites)
  · intro next rewrites
    exact irreducible _ (.rhs operator lhs rewrites)

private theorem Irreducible.rewriteRoot_eq {node : Expr α}
    (irreducible : Irreducible node) : node.rewriteRoot = node := by
  unfold rewriteRoot
  cases found : Rule.firstRewrite? Rule.all node with
  | none => rfl
  | some rewrite => exact absurd (.node (Rule.rewrite?_of_firstRewrite? found)) (irreducible _)

theorem Irreducible.simplify_eq {expr : Expr α} (irreducible : Irreducible expr) :
    expr.simplify = expr := by
  induction expr with
  | num | var => rfl
  | binary operator lhs rhs lhsIH rhsIH =>
      obtain ⟨lhsIrreducible, rhsIrreducible⟩ := irreducible.operands
      rw [simplify_binary, lhsIH lhsIrreducible, rhsIH rhsIrreducible, irreducible.rewriteRoot_eq]

private theorem irreducible_rewriteRoot {operator : Operator} {lhs rhs : Expr α}
    (lhsIrreducible : Irreducible lhs) (rhsIrreducible : Irreducible rhs) :
    Irreducible (binary operator lhs rhs).rewriteRoot := by
  unfold rewriteRoot
  cases found : Rule.firstRewrite? Rule.all (binary operator lhs rhs) with
  | none =>
      intro next rewrites
      cases rewrites with
      | @node rule _ _ rewritten =>
          have unchanged := Rule.firstRewrite?_eq_none_iff.mp found rule
          cases unchanged.symm.trans rewritten
      | lhs _ _ inLhs => exact lhsIrreducible _ inLhs
      | rhs _ _ inRhs => exact rhsIrreducible _ inRhs
  | some rewrite =>
      obtain ⟨_, _, _, same, left⟩ :=
        Rule.rewrite?_eq_some (Rule.rewrite?_of_firstRewrite? found)
      cases same
      rw [Option.map_some, Option.getD_some]
      rcases left with ⟨value, isNumber⟩ | isLhs | isRhs
      · rw [isNumber]
        exact irreducible_num value
      · rwa [isLhs]
      · rwa [isRhs]

/-- One pass from the leaves to the root leaves no node to which a rule applies. -/
theorem irreducible_simplify (expr : Expr α) : Irreducible expr.simplify := by
  induction expr with
  | num value => exact irreducible_num value
  | var name =>
      intro next rewrites
      cases rewrites with
      | node rewritten =>
          obtain ⟨_, _, _, same, _⟩ := Rule.rewrite?_eq_some rewritten
          cases same
  | binary operator lhs rhs lhsIH rhsIH =>
      rw [simplify_binary]
      exact irreducible_rewriteRoot lhsIH rhsIH

@[simp]
theorem simplify_simplify (expr : Expr α) : expr.simplify.simplify = expr.simplify :=
  (irreducible_simplify expr).simplify_eq

/-- Rewriting comes to an end. -/
theorem exists_rewritesIn_irreducible (expr : Expr α) :
    ∃ count last, RewritesIn count expr last ∧ Irreducible last := by
  -- Each rewriting makes the expression smaller.
  induction bound : expr.size using Nat.strongRecOn generalizing expr with
  | ind size ih =>
      by_cases irreducible : Irreducible expr
      · exact ⟨0, expr, .refl expr, irreducible⟩
      · obtain ⟨next, rewrites⟩ : ∃ next, RewritesTo expr next := by
          simpa [Irreducible] using irreducible
        have smaller := rewrites.size_add_two_le
        obtain ⟨count, last, goesOn, ended⟩ := ih next.size (by omega) next rfl
        exact ⟨count + 1, last, .step rewrites goesOn, ended⟩

end Expr

end Calculator
