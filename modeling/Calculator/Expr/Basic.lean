import Calculator.ParseTree

/-!
# Expressions

An expression is a number, a variable, or an operation on two expressions. Trees
are compared by structure, or by structure up to the order of the operands of
sums and products.
-/

set_option autoImplicit false

namespace Calculator

/-- An arithmetic expression over numbers of type `α`. -/
inductive Expr (α : Type) where
  | num (value : α)
  | var (name : String)
  | binary (operator : Operator) (lhs rhs : Expr α)
deriving DecidableEq, Repr

namespace Expr

variable {α : Type}

def add (lhs rhs : Expr α) : Expr α :=
  .binary .add lhs rhs

def sub (lhs rhs : Expr α) : Expr α :=
  .binary .sub lhs rhs

def mul (lhs rhs : Expr α) : Expr α :=
  .binary .mul lhs rhs

/-- The quotient of two expressions; the divisor may be anything. -/
def div (lhs rhs : Expr α) : Expr α :=
  .binary .div lhs rhs

/-- The opposite of an expression: there is no unary operator, so it is a product
with minus one. -/
def neg [One α] [Neg α] (operand : Expr α) : Expr α :=
  .mul (.num (-1)) operand

instance : Add (Expr α) := ⟨add⟩
instance : Sub (Expr α) := ⟨sub⟩
instance : Mul (Expr α) := ⟨mul⟩
instance : Div (Expr α) := ⟨div⟩
instance [One α] [Neg α] : Neg (Expr α) := ⟨neg⟩
instance : Coe α (Expr α) := ⟨num⟩
instance : Coe String (Expr α) := ⟨var⟩

def num? : Expr α → Option α
  | .num value => some value
  | _ => none

def var? : Expr α → Option String
  | .var name => some name
  | _ => none

/-- The operator and the operands of an operation. -/
def binary? : Expr α → Option (Operator × Expr α × Expr α)
  | .binary operator lhs rhs => some (operator, lhs, rhs)
  | _ => none

/-- Whether the expression is a number equal to `value`. -/
def isNum [BEq α] (value : α) : Expr α → Bool
  | .num other => other == value
  | _ => false

/-- The number of nodes on the longest path from the root to a leaf. -/
def depth : Expr α → Nat
  | .num _ | .var _ => 1
  | .binary _ lhs rhs => 1 + max lhs.depth rhs.depth

/-- Equality of structure: the same shape, operators and names, equal numbers. -/
def isEqual [BEq α] : Expr α → Expr α → Bool
  | .num first, .num second => first == second
  | .var first, .var second => first == second
  | .binary firstOperator firstLhs firstRhs, .binary secondOperator secondLhs secondRhs =>
      firstOperator == secondOperator && isEqual firstLhs secondLhs && isEqual firstRhs secondRhs
  | _, _ => false

instance [BEq α] : BEq (Expr α) := ⟨isEqual⟩

/-- Equality of structure where the operands of sums and products may stand in
either order. -/
def eqCommutative [BEq α] : Expr α → Expr α → Bool
  | .binary firstOperator firstLhs firstRhs, .binary secondOperator secondLhs secondRhs =>
      firstOperator == secondOperator &&
        (eqCommutative firstLhs secondLhs && eqCommutative firstRhs secondRhs ||
          firstOperator.commutes &&
            (eqCommutative firstLhs secondRhs && eqCommutative firstRhs secondLhs))
  | first, second => first == second

/-- The expression of a parse tree, which forgets where it came from. -/
def ofTree : ParseTree α → Expr α
  | .number value _ => .num value
  | .name lexeme _ => .var lexeme
  | .operation lhs operator rhs _ => .binary operator.value (ofTree lhs) (ofTree rhs)

end Expr

end Calculator
