import Calculator.Expr.PostOrder

/-!
# Reverse Polish notation

An expression as the list of its nodes in post-order, without their operands. The
list is read back on a stack of expressions: a leaf is pushed, an operator takes
its two operands from the top.
-/

set_option autoImplicit false

namespace Calculator

/-- An item of reverse Polish notation. -/
inductive RpnItem (α : Type) where
  | num (value : α)
  | var (name : String)
  | operator (operator : Operator)
  /-- The opposite of one operand, which no node writes. -/
  | neg
deriving DecidableEq, Repr

namespace Expr

variable {α : Type}

/-- A node without its operands. -/
def label : Expr α → RpnItem α
  | .num value => .num value
  | .var name => .var name
  | .binary operator _ _ => .operator operator

/-- The reverse Polish notation of an expression. -/
def rpn (root : Expr α) : List (RpnItem α) :=
  root.postOrder.map label

variable [One α] [Neg α]

/-- The stack after one item; `none` if an operand is missing. -/
def stackItem? : List (Expr α) → RpnItem α → Option (List (Expr α))
  | stack, .num value => some (.num value :: stack)
  | stack, .var name => some (.var name :: stack)
  | rhs :: lhs :: stack, .operator operator => some (.binary operator lhs rhs :: stack)
  | operand :: stack, .neg => some (operand.neg :: stack)
  | _, _ => none

/-- The expression of a list of items, if they make exactly one. -/
def ofRpn? (items : List (RpnItem α)) : Option (Expr α) :=
  match items.foldlM stackItem? [] with
  | some [expr] => some expr
  | _ => none

end Expr

end Calculator
