import Calculator.Simplification.Rule

/-!
# Simplification

One pass from the leaves to the root: the operands of a node are simplified, then
the first rule that applies to the node rewrites it. What was rewritten is told to
a collector in the order of the rewriting.
-/

set_option autoImplicit false

namespace Calculator

/-- A type that collects rewritings of expressions over `α`. -/
class Collector (κ α : Type) where
  /-- Takes one more rewriting. -/
  push : κ → Rewrite α → κ

variable {α : Type}

/-- The unit keeps nothing. -/
instance : Collector Unit α where
  push collected _ := collected

instance : Collector (Array Rule) α where
  push collected rewrite := collected.push rewrite.rule

instance : Collector (Array (Rewrite α)) α where
  push := Array.push

namespace Expr

variable {κ : Type} [Arithmetic α] [Collector κ α]

/-- Rewrites a node by the first of some rules that applies to it. -/
def rewriteWith (rules : List Rule) (node : Expr α) (collected : κ) : Option (Expr α) × κ :=
  match Rule.firstRewrite? rules node with
  | some rewrite => (some rewrite.output, Collector.push collected rewrite)
  | none => (none, collected)

/-- Simplifies an expression and tells a collector what was rewritten. -/
def simplifyWith : Expr α → κ → Expr α × κ
  | .num value, collected => (.num value, collected)
  | .var name, collected => (.var name, collected)
  | .binary operator lhs rhs, collected =>
      let (lhs, collected) := lhs.simplifyWith collected
      let (rhs, collected) := rhs.simplifyWith collected
      let node := Expr.binary operator lhs rhs
      let (rewritten, collected) := rewriteWith Rule.all node collected
      (rewritten.getD node, collected)

def simplify (expr : Expr α) : Expr α :=
  (expr.simplifyWith ()).1

/-- Simplifies an expression and gives the rules that were applied, in order. -/
def simplifyWithSteps (expr : Expr α) : Expr α × List Rule :=
  let (result, rules) := expr.simplifyWith (#[] : Array Rule)
  (result, rules.toList)

/-- Simplifies an expression and gives the rewritings, in order. -/
def simplifyWithRewrites (expr : Expr α) : Expr α × List (Rewrite α) :=
  let (result, rewrites) := expr.simplifyWith (#[] : Array (Rewrite α))
  (result, rewrites.toList)

/-- Simplifies the expressions of a list in order, with one collector for all. -/
def simplifyAllWith : List (Expr α) → κ → List (Expr α) × κ
  | [], collected => ([], collected)
  | expr :: rest, collected =>
      let (result, collected) := expr.simplifyWith collected
      let (results, collected) := simplifyAllWith rest collected
      (result :: results, collected)

end Expr

end Calculator
