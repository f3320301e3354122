import Mathlib.Algebra.Field.Rat
import Calculator.Proofs.Number.Field
import Calculator.Proofs.Number.Rational
import Calculator.Proofs.Simplification.Reduction
import Calculator.Trace

/-!
# Rewriting the first node first

Another way to simplify looks at the whole expression again and again: the first node in
post-order to which a rule applies is replaced, until there is none. The single pass from
the leaves to the root makes the same replacements in the same order, over any arithmetic.
-/

set_option autoImplicit false

namespace Calculator

variable {α : Type}

namespace Expr

/-- An expression with the node at the end of a path from its root replaced. -/
def replaceAlong : Expr α → List Side → Expr α → Expr α
  | _, [], output => output
  | .binary operator lhs rhs, .left :: path, output =>
      .binary operator (lhs.replaceAlong path output) rhs
  | .binary operator lhs rhs, .right :: path, output =>
      .binary operator lhs (rhs.replaceAlong path output)
  | leaf, _ :: _, _ => leaf

variable [Arithmetic α]

/-- The rewriting of the first node in post-order to which a rule applies, and the whole
expression after it. -/
def rewriteFirst? (expr : Expr α) : Option (Rewrite α × Expr α) :=
  expr.postOrderPlaces.findSome? fun place =>
    (Rule.firstRewrite? Rule.all place.node).map fun rewrite =>
      (rewrite, expr.replaceAlong place.address.reverse rewrite.output)

/-- Some rewritings of first nodes, one after the other. -/
inductive RewritesFirst : List (Rewrite α) → Expr α → Expr α → Prop where
  | refl (expr : Expr α) : RewritesFirst [] expr expr
  | step {rewrite : Rewrite α} {rewrites : List (Rewrite α)} {first second last : Expr α} :
      first.rewriteFirst? = some (rewrite, second) → RewritesFirst rewrites second last →
      RewritesFirst (rewrite :: rewrites) first last

/-- No node is rewritten by the first rule that applies to it, as there is none. -/
def Exhausted (expr : Expr α) : Prop :=
  ∀ node ∈ expr.postOrder, Rule.firstRewrite? Rule.all node = none

end Expr

/-! ## Finding the first node -/

namespace Expr

private theorem placesAt_eq_map (expr : Expr α) (address : Address) :
    expr.placesAt address =
      (expr.placesAt []).map fun place => ⟨place.address ++ address, place.node⟩ := by
  induction expr generalizing address with
  | num | var => rfl
  | binary operator lhs rhs lhsIH rhsIH =>
      simp only [placesAt]
      rw [lhsIH (.left :: address), rhsIH (.right :: address), lhsIH [.left], rhsIH [.right]]
      simp [Function.comp_def]

variable [Arithmetic α]

theorem rewriteFirst?_eq_none_iff {expr : Expr α} :
    expr.rewriteFirst? = none ↔ expr.Exhausted := by
  simp [rewriteFirst?, Exhausted, postOrder]

/-- The nodes of the left operand come first, then those of the right one, then the root. -/
theorem rewriteFirst?_binary (operator : Operator) (lhs rhs : Expr α) :
    (binary operator lhs rhs).rewriteFirst? =
      (lhs.rewriteFirst?.map fun (rewrite, newLhs) => (rewrite, binary operator newLhs rhs)).or
        ((rhs.rewriteFirst?.map fun (rewrite, newRhs) => (rewrite, binary operator lhs newRhs)).or
          ((Rule.firstRewrite? Rule.all (binary operator lhs rhs)).map fun rewrite =>
            (rewrite, rewrite.output))) := by
  -- The places in an operand are its own, with the turn from the root at the end of the address.
  simp only [rewriteFirst?, postOrderPlaces_eq, placesAt, List.findSome?_append]
  rw [placesAt_eq_map lhs [.left], placesAt_eq_map rhs [.right], List.findSome?_map,
    List.findSome?_map, List.map_findSome?, List.map_findSome?]
  congr 1
  · congr 1
    funext place
    simp [Function.comp_def, replaceAlong]
  · congr 1
    · congr 1
      funext place
      simp [Function.comp_def, replaceAlong]
    · simp [replaceAlong]

private theorem Irreducible.exhausted {expr : Expr α} (irreducible : Irreducible expr) :
    expr.Exhausted := by
  rw [← rewriteFirst?_eq_none_iff]
  induction expr with
  | num | var => rw [rewriteFirst?, postOrderPlaces_eq]; rfl
  | binary operator lhs rhs lhsIH rhsIH =>
      obtain ⟨lhsIrreducible, rhsIrreducible⟩ := irreducible.operands
      have root : Rule.firstRewrite? Rule.all (binary operator lhs rhs) = none := by
        rw [Rule.firstRewrite?_eq_none_iff]
        intro rule
        cases rewritten : rule.rewrite? (binary operator lhs rhs) with
        | none => rfl
        | some output => exact absurd (.node rewritten) (irreducible output)
      rw [rewriteFirst?_binary, lhsIH lhsIrreducible, rhsIH rhsIrreducible, root]
      rfl

/-! ## Runs -/

namespace RewritesFirst

variable {rewrites : List (Rewrite α)} {operator : Operator}

theorem trans {earlier later : List (Rewrite α)} {first second last : Expr α}
    (front : RewritesFirst earlier first second) (back : RewritesFirst later second last) :
    RewritesFirst (earlier ++ later) first last := by
  induction front with
  | refl => exact back
  | step rewritten _ ih => exact .step rewritten (ih back)

private theorem in_lhs {lhs newLhs : Expr α} (run : RewritesFirst rewrites lhs newLhs)
    (rhs : Expr α) :
    RewritesFirst rewrites (binary operator lhs rhs) (binary operator newLhs rhs) := by
  induction run with
  | refl => exact .refl _
  | step rewritten _ ih =>
      refine .step ?_ ih
      rw [rewriteFirst?_binary, rewritten]
      rfl

/-- The right operand's turn comes once no rule applies in the left one. -/
theorem in_rhs {lhs rhs newRhs : Expr α} (exhausted : lhs.Exhausted)
    (run : RewritesFirst rewrites rhs newRhs) :
    RewritesFirst rewrites (binary operator lhs rhs) (binary operator lhs newRhs) := by
  rw [← rewriteFirst?_eq_none_iff] at exhausted
  induction run with
  | refl => exact .refl _
  | step rewritten _ ih =>
      refine .step ?_ ih
      rw [rewriteFirst?_binary, exhausted, rewritten]
      rfl

private theorem root {lhs rhs : Expr α} (lhsExhausted : lhs.Exhausted)
    (rhsExhausted : rhs.Exhausted) :
    RewritesFirst (Rule.firstRewrite? Rule.all (binary operator lhs rhs)).toList
      (binary operator lhs rhs) (binary operator lhs rhs).rewriteRoot := by
  rw [← rewriteFirst?_eq_none_iff] at lhsExhausted rhsExhausted
  have atRoot : (binary operator lhs rhs).rewriteFirst? =
      (Rule.firstRewrite? Rule.all (binary operator lhs rhs)).map fun rewrite =>
        (rewrite, rewrite.output) := by
    rw [rewriteFirst?_binary, lhsExhausted, rhsExhausted]
    rfl
  unfold rewriteRoot
  cases found : Rule.firstRewrite? Rule.all (binary operator lhs rhs) with
  | none => exact .refl _
  | some rewrite =>
      rw [found] at atRoot
      exact .step atRoot (.refl _)

/-- A run that comes to an end is the only one. -/
theorem unique {others : List (Rewrite α)} {first last other : Expr α}
    (run : RewritesFirst rewrites first last) (exhausted : last.Exhausted)
    (otherRun : RewritesFirst others first other) (otherExhausted : other.Exhausted) :
    others = rewrites ∧ other = last := by
  rw [← rewriteFirst?_eq_none_iff] at exhausted otherExhausted
  -- Each step is a function of the expression, so neither run can go on without the other.
  induction run generalizing others with
  | refl =>
      cases otherRun with
      | refl => exact ⟨rfl, rfl⟩
      | step rewritten => cases exhausted.symm.trans rewritten
  | step rewritten _ ih =>
      cases otherRun with
      | refl => cases otherExhausted.symm.trans rewritten
      | step otherRewritten otherRest =>
          cases rewritten.symm.trans otherRewritten
          obtain ⟨rfl, rfl⟩ := ih exhausted otherRest
          exact ⟨rfl, rfl⟩

end RewritesFirst

private theorem exhausted_simplify (expr : Expr α) : expr.simplify.Exhausted :=
  (irreducible_simplify expr).exhausted

/-- One pass makes the rewritings of first nodes. -/
theorem rewritesFirst_simplify (expr : Expr α) :
    RewritesFirst expr.rewrites expr expr.simplify := by
  induction expr with
  | num | var => exact .refl _
  | binary operator lhs rhs lhsIH rhsIH =>
      have lhsExhausted := exhausted_simplify lhs
      rw [rewrites, simplify_binary]
      apply (lhsIH.in_lhs rhs).trans
      apply (rhsIH.in_rhs lhsExhausted).trans
      exact .root lhsExhausted (exhausted_simplify rhs)

private theorem rewrites_simplify (expr : Expr α) : expr.simplify.rewrites = [] := by
  have exhausted := exhausted_simplify expr
  have run := rewritesFirst_simplify expr.simplify
  rw [simplify_simplify] at run
  exact ((RewritesFirst.refl _).unique exhausted run exhausted).1

end Expr

/-! ## The events of a simplification -/

private theorem Expr.simplifyWithEvents_eq [Arithmetic α] (expr : Expr α) :
    expr.simplifyWithEvents = (expr.simplify, expr.rewrites.map TraceEvent.rewritten) := by
  rw [simplifyWithEvents, simplifyWithRewrites_eq]

section Events

variable [Numeral α]

/-- What an event tells of a rewriting: its rule, the node replaced and what replaced it. -/
def Rewrite.eventFields (rewrite : Rewrite α) : List (String × String) :=
  [("message", "applied simplification rule"), ("step", rewrite.rule.text),
   ("input", rewrite.input.text), ("output", rewrite.output.text)]

/-- Whether the fields of an event are those of a rewriting. -/
def tellsRewriting (fields : List (String × String)) : Bool :=
  fields.head? == some ("message", "applied simplification rule")

private theorem filter_tellsRewriting_parsed (operations : List (Located Operator)) :
    (operations.map fun operation => (TraceEvent.parsed operation : TraceEvent α).fields).filter
      tellsRewriting = [] := by
  simp [TraceEvent.fields, tellsRewriting]

private theorem filter_tellsRewriting_eventFields (rewrites : List (Rewrite α)) :
    (rewrites.map Rewrite.eventFields).filter tellsRewriting =
      rewrites.map Rewrite.eventFields := by
  apply List.filter_eq_self.mpr
  intro fields member
  obtain ⟨rewrite, -, rfl⟩ := List.mem_map.mp member
  rfl

private theorem Expr.fields_simplifyWithEvents [Arithmetic α] (expr : Expr α) :
    expr.simplifyWithEvents.2.map TraceEvent.fields = expr.rewrites.map Rewrite.eventFields := by
  rw [simplifyWithEvents_eq, List.map_map]
  rfl

/-- Nothing but the simplification of the expression emits events of rewritings. -/
theorem Expr.traceSimplify_of_ofText [Arithmetic α] {source : String} {expr : Expr α}
    (read : Expr.ofText source = .ok expr) :
    (traceSimplify (α := α) source).2 = .ok expr.simplify ∧
      ((traceSimplify (α := α) source).1.map TraceEvent.fields).filter tellsRewriting =
        expr.rewrites.map Rewrite.eventFields := by
  unfold ofText ParseTree.parse at read
  unfold traceSimplify
  generalize ParseTree.parseCompleting (α := α) source = parsed at read ⊢
  obtain ⟨result, operations⟩ := parsed
  cases result with
  | error error => cases read
  | ok tree =>
      cases read
      refine ⟨congrArg Except.ok (congrArg Prod.fst (ofTree tree).simplifyWithEvents_eq), ?_⟩
      rw [List.map_append, fields_simplifyWithEvents, List.filter_append,
        filter_tellsRewriting_eventFields, List.map_cons,
        List.filter_cons_of_neg (by simp [TraceEvent.fields, tellsRewriting]),
        List.map_map, Function.comp_def, filter_tellsRewriting_parsed, List.nil_append]

/-- Simplification gives what comes of rewriting the first node in post-order to which a rule
applies until there is none, and its steps and events are the rewritings on the way. -/
theorem simplifyWithSteps_rewrites_first [Arithmetic α] (expr : Expr α) :
    ∃ (result : Expr α) (rewrites : List (Rewrite α)),
      expr.simplifyWithSteps = (result, rewrites.map Rewrite.rule) ∧
      expr.simplifyWithRewrites = (result, rewrites) ∧
      (∀ others other, (Expr.RewritesFirst others expr other ∧ other.Exhausted) ↔
        others = rewrites ∧ other = result) ∧
      result.simplifyWithSteps = (result, []) ∧
      expr.simplifyWithEvents.2.map TraceEvent.fields = rewrites.map Rewrite.eventFields ∧
      ∀ source : String, Expr.ofText source = .ok expr →
        (Expr.traceSimplify (α := α) source).2 = .ok result ∧
          ((Expr.traceSimplify (α := α) source).1.map TraceEvent.fields).filter tellsRewriting =
            rewrites.map Rewrite.eventFields := by
  have run := expr.rewritesFirst_simplify
  have exhausted := expr.exhausted_simplify
  refine ⟨expr.simplify, expr.rewrites, expr.simplifyWithSteps_eq, expr.simplifyWithRewrites_eq,
    ?_, ?_, expr.fields_simplifyWithEvents, ?_⟩
  · intro others other
    constructor
    · intro otherRun
      exact run.unique exhausted otherRun.1 otherRun.2
    · intro same
      obtain ⟨rfl, rfl⟩ := same
      exact ⟨run, exhausted⟩
  · rw [Expr.simplifyWithSteps_eq, Expr.simplify_simplify, Expr.rewrites_simplify]
    rfl
  · intro source read
    exact Expr.traceSimplify_of_ofText read

end Events

/-- The sum `(x * 1) + (2 * 3)`, in which both operands are rewritten. -/
def rewritableSum : Expr ℚ :=
  .add (.mul (.var "x") (.num 1)) (.mul (.num 2) (.num 3))

theorem simplifyWithSteps_rewrites_first_sum :
    Expr.ofText "((x * 1) + (2 * 3))" = .ok rewritableSum ∧
      rewritableSum.simplifyWithSteps =
        (.add (.var "x") (.num 6), [.multiplyOne, .constantFold]) ∧
      ∃ rewrites, Expr.RewritesFirst rewrites rewritableSum (.add (.var "x") (.num 6)) ∧
        ((Expr.traceSimplify (α := ℚ) "((x * 1) + (2 * 3))").1.map TraceEvent.fields).filter
          tellsRewriting = rewrites.map Rewrite.eventFields := by
  have read : Expr.ofText "((x * 1) + (2 * 3))" = .ok rewritableSum := by decide +kernel
  have steps : rewritableSum.simplifyWithSteps =
      (.add (.var "x") (.num 6), [.multiplyOne, .constantFold]) := by decide +kernel
  obtain ⟨result, rewrites, sameSteps, -, runs, -, -, traced⟩ :=
    simplifyWithSteps_rewrites_first rewritableSum
  have run := ((runs rewrites result).mpr ⟨rfl, rfl⟩).1
  cases congrArg Prod.fst (sameSteps.symm.trans steps)
  exact ⟨read, steps, rewrites, run, (traced _ read).2⟩

end Calculator
