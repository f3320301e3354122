/-!
# Binary operators

The four operators of arithmetic, how tightly they bind and how they are written.
-/

set_option autoImplicit false

namespace Calculator

/-- An operator between two operands. -/
inductive Operator where
  | add
  | sub
  | mul
  | div
deriving DecidableEq, Repr

/-- How tightly an operator binds in infix notation. -/
inductive Precedence where
  /-- Addition and subtraction, which separate terms. -/
  | term
  /-- Multiplication and division, which separate factors and bind tighter. -/
  | factor
deriving DecidableEq, Repr

namespace Precedence

/-- The level as a number; tighter binding is greater. -/
def level : Precedence → Nat
  | .term => 0
  | .factor => 1

def name : Precedence → String
  | .term => "Term"
  | .factor => "Factor"

end Precedence

namespace Operator

/-- All operators, in the order of their declaration. -/
def all : List Operator :=
  [.add, .sub, .mul, .div]

def precedence : Operator → Precedence
  | .add | .sub => .term
  | .mul | .div => .factor

/-- Whether the operands may be exchanged. -/
def commutes : Operator → Bool
  | .add | .mul => true
  | .sub | .div => false

def symbol : Operator → Char
  | .add => '+'
  | .sub => '-'
  | .mul => '*'
  | .div => '/'

/-- The symbol of an operator as a text. -/
def text (operator : Operator) : String :=
  String.singleton operator.symbol

def name : Operator → String
  | .add => "Add"
  | .sub => "Sub"
  | .mul => "Mul"
  | .div => "Div"

def ofName? (name : String) : Option Operator :=
  all.find? (·.name == name)

@[simp]
theorem ofName?_name (operator : Operator) : ofName? operator.name = some operator := by
  cases operator <;> decide

end Operator

end Calculator
