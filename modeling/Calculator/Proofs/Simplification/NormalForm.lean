import Mathlib.Algebra.Field.Rat
import Calculator.Proofs.Number.Field
import Calculator.Proofs.Simplification.Reduction

/-!
# Normal forms

Over exact arithmetic all rules that apply to a node leave the same, and a rule that
applies to it still does once its operands are simplified. So rewriting, at any nodes and
in any order, does not change what an expression is simplified to.
-/

set_option autoImplicit false

namespace Calculator

variable {K : Type} [Field K] [DecidableEq K]

theorem Expr.isNum_iff {value : K} {expr : Expr K} :
    expr.isNum value = true ↔ expr = .num value := by
  constructor
  · exact eq_num_of_isNum
  · intro same
    subst same
    exact beq_self_eq_true value

namespace Rule

/-- What each rule says over exact arithmetic. -/
inductive Law : Rule → Expr K → Expr K → Prop where
  | fold {operator : Operator} {lhs rhs value : K} :
      operator.fold? lhs rhs = some value →
      Law .constantFold (.binary operator (.num lhs) (.num rhs)) (.num value)
  | add_zero (expr : Expr K) : Law .addZero (.binary .add expr (.num 0)) expr
  | zero_add (expr : Expr K) : Law .addZero (.binary .add (.num 0) expr) expr
  | sub_zero (expr : Expr K) : Law .subtractZero (.binary .sub expr (.num 0)) expr
  | mul_zero (expr : Expr K) : Law .multiplyZero (.binary .mul expr (.num 0)) (.num 0)
  | zero_mul (expr : Expr K) : Law .multiplyZero (.binary .mul (.num 0) expr) (.num 0)
  | mul_one (expr : Expr K) : Law .multiplyOne (.binary .mul expr (.num 1)) expr
  | one_mul (expr : Expr K) : Law .multiplyOne (.binary .mul (.num 1) expr) expr
  | div_one (expr : Expr K) : Law .divideOne (.binary .div expr (.num 1)) expr

private theorem keptLhs {unit : K} {lhs rhs output : Expr K}
    (rewritten : (if rhs.isNum unit then some lhs else none) = some output) :
    rhs = .num unit ∧ output = lhs := by
  obtain ⟨isUnit, same⟩ := Option.ite_none_right_eq_some.mp rewritten
  exact ⟨Expr.eq_num_of_isNum isUnit, (Option.some.inj same).symm⟩

private theorem keptOther {unit : K} {lhs rhs output : Expr K}
    (rewritten : (if rhs.isNum unit then some lhs
      else if lhs.isNum unit then some rhs else none) = some output) :
    rhs = .num unit ∧ output = lhs ∨ lhs = .num unit ∧ output = rhs := by
  split at rewritten
  next isUnit => exact .inl ⟨Expr.eq_num_of_isNum isUnit, (Option.some.inj rewritten).symm⟩
  next => exact .inr (keptLhs rewritten)

theorem law_of_rewrite? {rule : Rule} {node output : Expr K}
    (rewritten : rule.rewrite? node = some output) : Law rule node output := by
  unfold rewrite? at rewritten
  split at rewritten
  case h_1 =>
    obtain ⟨value, folded, rfl⟩ := Option.map_eq_some_iff.mp rewritten
    exact .fold folded
  case h_2 =>
    rcases keptOther rewritten with ⟨rfl, rfl⟩ | ⟨rfl, rfl⟩
    · exact .add_zero _
    · exact .zero_add _
  case h_3 =>
    obtain ⟨rfl, rfl⟩ := keptLhs rewritten
    exact .sub_zero _
  case h_4 =>
    obtain ⟨isZero, same⟩ := Option.ite_none_right_eq_some.mp rewritten
    cases same
    rcases Bool.or_eq_true_iff.mp isZero with isZero | isZero
    · rw [Expr.eq_num_of_isNum isZero]
      exact .zero_mul _
    · rw [Expr.eq_num_of_isNum isZero]
      exact .mul_zero _
  case h_5 =>
    rcases keptOther rewritten with ⟨rfl, rfl⟩ | ⟨rfl, rfl⟩
    · exact .mul_one _
    · exact .one_mul _
  case h_6 =>
    obtain ⟨rfl, rfl⟩ := keptLhs rewritten
    exact .div_one _
  case h_7 => cases rewritten

private theorem Law.rewrite?_eq {rule : Rule} {node output : Expr K} (law : Law rule node output) :
    rule.rewrite? node = some output := by
  cases law with
  | fold folded => rw [rewrite?, folded, Option.map_some]
  | zero_add | one_mul =>
      -- The right operand is asked first: if it is the unit too, both are the same.
      simp only [rewrite?, Expr.isNum_iff]
      split <;> simp_all
  | add_zero | sub_zero | mul_zero | zero_mul | mul_one | div_one =>
      simp [rewrite?, Expr.isNum_iff]

/-- On two numbers every rule that applies gives the result of the operation. -/
theorem Law.eq_result {rule : Rule} {node output : Expr K} (law : Law rule node output)
    {operator : Operator} {lhs rhs : K} (numbers : node = .binary operator (.num lhs) (.num rhs)) :
    (operator.fold? lhs rhs).map Expr.num = some output := by
  cases law with
  | fold folded =>
      cases numbers
      rw [folded, Option.map_some]
  | add_zero | zero_add | sub_zero | mul_zero | zero_mul | mul_one | one_mul | div_one =>
      cases numbers
      simp [Operator.fold?]

/-- All rules that apply to a node leave the same. -/
theorem Law.unique {rule other : Rule} {node sameNode first second : Expr K}
    (law : Law rule node first) (otherLaw : Law other sameNode second) (same : node = sameNode) :
    first = second := by
  by_cases numbers : ∃ operator lhs rhs, node = .binary operator (.num lhs) (.num rhs)
  · obtain ⟨operator, lhs, rhs, numbers⟩ := numbers
    have result := law.eq_result numbers
    rw [otherLaw.eq_result (same.symm.trans numbers)] at result
    exact (Option.some.inj result).symm
  · cases law with
    | fold => exact absurd ⟨_, _, _, rfl⟩ numbers
    | _ =>
        -- Two laws of one operator leave the same operand, or a unit that both share.
        cases otherLaw <;> simp_all

theorem rewriteRoot_of_law {rule : Rule} {node output : Expr K} (law : Law rule node output) :
    node.rewriteRoot = output := by
  unfold Expr.rewriteRoot
  cases found : firstRewrite? all node with
  | none =>
      have unchanged := firstRewrite?_eq_none_iff.mp found rule
      rw [law.rewrite?_eq] at unchanged
      cases unchanged
  | some rewrite =>
      have applied := law_of_rewrite? (rewrite?_of_firstRewrite? found)
      exact applied.unique law rfl

/-- A rule still applies to a node when its operands are simplified. -/
theorem Law.simplify_operands {rule : Rule} {operator : Operator} {lhs rhs output : Expr K}
    (law : Law rule (.binary operator lhs rhs) output) :
    Law rule (.binary operator lhs.simplify rhs.simplify) output.simplify := by
  cases law with
  | fold folded => exact .fold folded
  | add_zero => exact .add_zero _
  | zero_add => exact .zero_add _
  | sub_zero => exact .sub_zero _
  | mul_zero => exact .mul_zero _
  | zero_mul => exact .zero_mul _
  | mul_one => exact .mul_one _
  | one_mul => exact .one_mul _
  | div_one => exact .div_one _

end Rule

namespace Expr

section Identities

variable (expr : Expr K)

@[simp] theorem rewriteRoot_add_zero : (binary .add expr (num 0)).rewriteRoot = expr :=
  Rule.rewriteRoot_of_law (.add_zero expr)

@[simp] theorem rewriteRoot_zero_add : (binary .add (num 0) expr).rewriteRoot = expr :=
  Rule.rewriteRoot_of_law (.zero_add expr)

@[simp] theorem rewriteRoot_sub_zero : (binary .sub expr (num 0)).rewriteRoot = expr :=
  Rule.rewriteRoot_of_law (.sub_zero expr)

@[simp] theorem rewriteRoot_mul_zero : (binary .mul expr (num 0)).rewriteRoot = num 0 :=
  Rule.rewriteRoot_of_law (.mul_zero expr)

@[simp] theorem rewriteRoot_zero_mul : (binary .mul (num 0) expr).rewriteRoot = num 0 :=
  Rule.rewriteRoot_of_law (.zero_mul expr)

@[simp] theorem rewriteRoot_mul_one : (binary .mul expr (num 1)).rewriteRoot = expr :=
  Rule.rewriteRoot_of_law (.mul_one expr)

@[simp] theorem rewriteRoot_one_mul : (binary .mul (num 1) expr).rewriteRoot = expr :=
  Rule.rewriteRoot_of_law (.one_mul expr)

@[simp] theorem rewriteRoot_div_one : (binary .div expr (num 1)).rewriteRoot = expr :=
  Rule.rewriteRoot_of_law (.div_one expr)

end Identities

private theorem simplify_of_rewrite? {rule : Rule} {node output : Expr K}
    (rewritten : rule.rewrite? node = some output) : node.simplify = output.simplify := by
  obtain ⟨operator, lhs, rhs, rfl, -⟩ := Rule.rewrite?_eq_some rewritten
  rw [simplify_binary]
  exact Rule.rewriteRoot_of_law (Rule.law_of_rewrite? rewritten).simplify_operands

/-- No rewriting of a node anywhere changes what an expression is simplified to. -/
theorem RewritesTo.simplify_eq {first second : Expr K} (rewrites : RewritesTo first second) :
    first.simplify = second.simplify := by
  induction rewrites with
  | node rewritten => exact simplify_of_rewrite? rewritten
  | lhs operator rhs _ ih => rw [simplify_binary, simplify_binary, ih]
  | rhs operator lhs _ ih => rw [simplify_binary, simplify_binary, ih]

private theorem RewritesIn.simplify_eq {count : Nat} {first last : Expr K}
    (rewrites : RewritesIn count first last) : first.simplify = last.simplify := by
  induction rewrites with
  | refl => rfl
  | step rewritten _ ih => exact rewritten.simplify_eq.trans ih

end Expr

/-- However an expression is rewritten, by any rules at any nodes, each rewriting that goes
on has a limited number of steps, and one that cannot go on has come to the simplified
expression, to which nothing more applies. -/
theorem rewriting_ends_in_simplify {K : Type} [Field K] [DecidableEq K] (expr : Expr K) :
    (∀ count last, Expr.RewritesIn count expr last → count ≤ (expr.nodeCount - 1) / 2) ∧
    (∀ count last, Expr.RewritesIn count expr last → Expr.Irreducible last →
      last = expr.simplify) ∧
    (∃ count, Expr.RewritesIn count expr expr.simplify) ∧ Expr.Irreducible expr.simplify := by
  have ends (count : Nat) (last : Expr K) (rewrites : Expr.RewritesIn count expr last)
      (irreducible : Expr.Irreducible last) : last = expr.simplify := by
    rw [rewrites.simplify_eq, irreducible.simplify_eq]
  obtain ⟨count, last, rewrites, irreducible⟩ := expr.exists_rewritesIn_irreducible
  rw [ends count last rewrites irreducible] at rewrites
  exact ⟨fun _ _ other => other.count_le, ends, ⟨count, rewrites⟩, expr.irreducible_simplify⟩

/-- The quotient `(0 * (x / 0) + 6) / (1 * 1)`, in which rules overlap. -/
def overlappingQuotient : Expr ℚ :=
  .div (.add (.mul (.num 0) (.div (.var "x") (.num 0))) (.num 6)) (.mul (.num 1) (.num 1))

theorem rewriting_ends_in_six :
    Expr.RewritesIn 4 overlappingQuotient (.num 6) ∧
      4 ≤ (overlappingQuotient.nodeCount - 1) / 2 ∧
      Expr.Irreducible (.num (6 : ℚ)) ∧ .num 6 = overlappingQuotient.simplify := by
  have rewrites : Expr.RewritesIn 4 overlappingQuotient (.num 6) := by
    -- From the root downwards, and with the identities before folding.
    apply Expr.RewritesIn.step (.rhs _ _ (.node (Rule.Law.mul_one _).rewrite?_eq))
    apply Expr.RewritesIn.step (.node (Rule.Law.div_one _).rewrite?_eq)
    apply Expr.RewritesIn.step (.lhs _ _ (.node (Rule.Law.zero_mul _).rewrite?_eq))
    apply Expr.RewritesIn.step (.node (Rule.Law.zero_add _).rewrite?_eq)
    exact .refl _
  have irreducible : Expr.Irreducible (.num (6 : ℚ)) := Expr.irreducible_num 6
  have normal := rewriting_ends_in_simplify overlappingQuotient
  exact ⟨rewrites, normal.1 4 _ rewrites, irreducible, normal.2.1 4 _ rewrites irreducible⟩

end Calculator
