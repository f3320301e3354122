import Calculator.Proofs.Simplification.FirstNode

/-!
# What simplification removes

Each rewriting removes two nodes or more, makes no path longer and brings in no variable. So
an expression shrinks by what its steps tell, and it stays the same only without a step. Steps
of several expressions are collected one after the other.
-/

set_option autoImplicit false

namespace Calculator

variable {α : Type} [Arithmetic α]

namespace Expr

/-! ## One rewriting -/

private theorem RewritesTo.depth_le {first second : Expr α} (rewrites : RewritesTo first second) :
    second.depth ≤ first.depth := by
  induction rewrites with
  | node rewritten =>
      obtain ⟨operator, lhs, rhs, rfl, left⟩ := Rule.rewrite?_eq_some rewritten
      rcases left with ⟨value, rfl⟩ | rfl | rfl <;> simp only [depth] <;> omega
  | lhs operator rhs _ ih | rhs operator lhs _ ih =>
      simp only [depth]
      omega

private theorem RewritesTo.variableNames_subset {first second : Expr α}
    (rewrites : RewritesTo first second) : second.variableNames ⊆ first.variableNames := by
  induction rewrites with
  | node rewritten =>
      intro name member
      obtain ⟨operator, lhs, rhs, rfl, left⟩ := Rule.rewrite?_eq_some rewritten
      apply mem_variableNames_binary.mpr
      rcases left with ⟨value, rfl⟩ | rfl | rfl
      · exact absurd member not_mem_variableNames_num
      · exact .inl member
      · exact .inr member
  | lhs operator rhs _ ih =>
      intro name member
      apply mem_variableNames_binary.mpr
      exact (mem_variableNames_binary.mp member).imp (fun inLhs => ih inLhs) id
  | rhs operator lhs _ ih =>
      intro name member
      apply mem_variableNames_binary.mpr
      exact (mem_variableNames_binary.mp member).imp id (fun inRhs => ih inRhs)

/-- The first node to be rewritten is a node. -/
theorem rewritesTo_of_rewriteFirst? {expr next : Expr α} {rewrite : Rewrite α}
    (found : expr.rewriteFirst? = some (rewrite, next)) : RewritesTo expr next := by
  induction expr generalizing next with
  | num | var =>
      rw [rewriteFirst?, postOrderPlaces_eq] at found
      cases found
  | binary operator lhs rhs lhsIH rhsIH =>
      rw [rewriteFirst?_binary, Option.or_eq_some_iff, Option.or_eq_some_iff] at found
      rcases found with inLhs | ⟨-, inRhs | ⟨-, atRoot⟩⟩
      · obtain ⟨⟨_, newLhs⟩, lhsFound, same⟩ := Option.map_eq_some_iff.mp inLhs
        cases same
        exact .lhs operator rhs (lhsIH lhsFound)
      · obtain ⟨⟨_, newRhs⟩, rhsFound, same⟩ := Option.map_eq_some_iff.mp inRhs
        cases same
        exact .rhs operator lhs (rhsIH rhsFound)
      · obtain ⟨own, rootFound, same⟩ := Option.map_eq_some_iff.mp atRoot
        cases same
        exact .node (Rule.rewrite?_of_firstRewrite? rootFound)

/-! ## All of them -/

namespace RewritesIn

variable {count : Nat} {first last : Expr α}

private theorem depth_le (rewrites : RewritesIn count first last) : last.depth ≤ first.depth := by
  induction rewrites with
  | refl => exact Nat.le_refl _
  | step rewritten _ ih => exact Nat.le_trans ih rewritten.depth_le

private theorem variableNames_subset (rewrites : RewritesIn count first last) :
    last.variableNames ⊆ first.variableNames := by
  induction rewrites with
  | refl => exact List.Subset.refl _
  | step rewritten _ ih => exact List.Subset.trans ih rewritten.variableNames_subset

theorem eq_iff (rewrites : RewritesIn count first last) : last = first ↔ count = 0 := by
  constructor
  · intro same
    have smaller := rewrites.size_add_le
    rw [same] at smaller
    omega
  · intro none
    subst none
    cases rewrites
    rfl

end RewritesIn

private theorem RewritesFirst.rewritesIn {rewrites : List (Rewrite α)} {first last : Expr α}
    (run : RewritesFirst rewrites first last) : RewritesIn rewrites.length first last := by
  induction run with
  | refl => exact .refl _
  | step rewritten _ ih => exact .step (rewritesTo_of_rewriteFirst? rewritten) ih

private theorem simplifyAllWith_eq {κ : Type} [Collector κ α] (exprs : List (Expr α))
    (collected : κ) : simplifyAllWith exprs collected =
      (exprs.map simplify, (exprs.flatMap rewrites).foldl Collector.push collected) := by
  induction exprs generalizing collected with
  | nil => rfl
  | cons expr rest ih =>
      simp only [simplifyAllWith, simplifyWith_eq, ih, List.map_cons, List.flatMap_cons,
        List.foldl_append]

end Expr

/-- A simplified expression has two nodes less for each step, no longer paths and no other
variables, and is the expression itself exactly if there was no step. With one collector for
several expressions, their steps come behind those that it holds, in order, and the results
are those of collecting nothing. -/
theorem simplification_shrinks :
    (∀ expr : Expr α, ∃ result steps, expr.simplifyWithSteps = (result, steps) ∧
      result.nodeCount + 2 * steps.length ≤ expr.nodeCount ∧
      result.depth ≤ expr.depth ∧
      result.variableNames ⊆ expr.variableNames ∧
      (result = expr ↔ steps = [])) ∧
    ∀ (exprs : List (Expr α)) (collected : Array Rule),
      (Expr.simplifyAllWith exprs collected).1 =
        exprs.map (fun expr => (expr.simplifyWith ()).1) ∧
      (Expr.simplifyAllWith exprs collected).2.toList =
        collected.toList ++ exprs.flatMap fun expr => expr.simplifyWithSteps.2 := by
  constructor
  · intro expr
    have run := expr.rewritesFirst_simplify.rewritesIn
    refine ⟨_, _, expr.simplifyWithSteps_eq, ?_, run.depth_le, run.variableNames_subset, ?_⟩
    · rw [Expr.nodeCount_eq_size, Expr.nodeCount_eq_size, List.length_map]
      exact run.size_add_le
    · rw [run.eq_iff, List.map_eq_nil_iff, List.length_eq_zero_iff]
  · intro exprs collected
    rw [Expr.simplifyAllWith_eq]
    refine ⟨rfl, ?_⟩
    rw [Expr.toList_foldl_push, List.map_flatMap]
    simp only [Expr.simplifyWithSteps_eq]

end Calculator
