import Calculator.Expr.Basic
import Calculator.Json

/-!
# Expressions as documents

A node is an object with one field, named for the kind of node. What was written
for a number that is not finite is not read back.
-/

set_option autoImplicit false

namespace Calculator

variable {α : Type}

/-- The operator that a document names. The name may stand alone or as the only
field of an object without content. -/
def Operator.ofJson? : Json α → Option Operator
  | .string name => Operator.ofName? name
  | .object [(name, .null)] => Operator.ofName? name
  | _ => none

namespace Expr

def toJson [Numeral α] : Expr α → Json α
  | .num value => .object [("Num", .ofNumber value)]
  | .var name => .object [("Var", .string name)]
  | .binary operator lhs rhs =>
      .object [("BinOp", .array [.string operator.name, lhs.toJson, rhs.toJson])]

def ofJson? : Json α → Option (Expr α)
  | .object [("Num", .number value)] => some (.num value)
  | .object [("Var", .string name)] => some (.var name)
  | .object [("BinOp", .array [operator, lhs, rhs])] => do
      return .binary (← Operator.ofJson? operator) (← ofJson? lhs) (← ofJson? rhs)
  | _ => none

end Expr

end Calculator
