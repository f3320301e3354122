import Calculator.Expr.Basic

/-!
# Simplification rules

A rule rewrites a single node and looks no deeper than at the operands being
numbers. Folding leaves a division by zero alone, so that no rule can fail.
-/

set_option autoImplicit false

namespace Calculator

/-- A rule that rewrites one node. -/
inductive Rule where
  /-- An operation on two numbers becomes its result. -/
  | constantFold
  /-- Adding zero changes nothing: `a + 0` and `0 + a` become `a`. -/
  | addZero
  /-- Subtracting zero changes nothing: `a - 0` becomes `a`. -/
  | subtractZero
  /-- A product with zero is zero: `a * 0` and `0 * a` become `0`. -/
  | multiplyZero
  /-- Multiplying by one changes nothing: `a * 1` and `1 * a` become `a`. -/
  | multiplyOne
  /-- Dividing by one changes nothing: `a / 1` becomes `a`. -/
  | divideOne
deriving DecidableEq, Repr

/-- A rewriting of one node by a rule. -/
structure Rewrite (α : Type) where
  rule : Rule
  input : Expr α
  output : Expr α
deriving DecidableEq, Repr

/-- What an operation on two numbers is folded to. A division by a number equal to
zero is left alone. -/
def Operator.fold? {α : Type} [Arithmetic α] (operator : Operator) (lhs rhs : α) : Option α :=
  match operator with
  | .add => some (lhs + rhs)
  | .sub => some (lhs - rhs)
  | .mul => some (lhs * rhs)
  | .div => if rhs != 0 then some (lhs / rhs) else none

namespace Rule

/-- All rules, in the order in which they are tried. -/
def all : List Rule :=
  [.constantFold, .addZero, .subtractZero, .multiplyZero, .multiplyOne, .divideOne]

def name : Rule → String
  | .constantFold => "ConstantFold"
  | .addZero => "AddZero"
  | .subtractZero => "SubtractZero"
  | .multiplyZero => "MultiplyZero"
  | .multiplyOne => "MultiplyOne"
  | .divideOne => "DivideOne"

def text : Rule → String
  | .constantFold => "evaluate an operation on two numbers"
  | .addZero => "adding zero: a + 0 = a"
  | .subtractZero => "subtracting zero: a - 0 = a"
  | .multiplyZero => "multiplying by zero: a * 0 = 0"
  | .multiplyOne => "multiplying by one: a * 1 = a"
  | .divideOne => "dividing by one: a / 1 = a"

variable {α : Type} [Arithmetic α]

/-- What a rule makes of a node, if it applies to it. Where it applies to either
operand, the right one is asked first. -/
def rewrite? : Rule → Expr α → Option (Expr α)
  | .constantFold, .binary operator (.num lhs) (.num rhs) =>
      (operator.fold? lhs rhs).map Expr.num
  | .addZero, .binary .add lhs rhs =>
      if rhs.isNum 0 then some lhs else if lhs.isNum 0 then some rhs else none
  | .subtractZero, .binary .sub lhs rhs =>
      if rhs.isNum 0 then some lhs else none
  | .multiplyZero, .binary .mul lhs rhs =>
      if lhs.isNum 0 || rhs.isNum 0 then some (.num 0) else none
  | .multiplyOne, .binary .mul lhs rhs =>
      if rhs.isNum 1 then some lhs else if lhs.isNum 1 then some rhs else none
  | .divideOne, .binary .div lhs rhs =>
      if rhs.isNum 1 then some lhs else none
  | _, _ => none

/-- The rewriting of a node by the first of some rules that applies to it. -/
def firstRewrite? (rules : List Rule) (node : Expr α) : Option (Rewrite α) :=
  rules.findSome? fun rule => (rule.rewrite? node).map fun output => ⟨rule, node, output⟩

end Rule

end Calculator
