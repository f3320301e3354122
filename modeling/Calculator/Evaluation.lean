import Calculator.Context
import Calculator.Expr.Basic

/-!
# Evaluation

The number that an expression stands for in a context. The left operand is
evaluated before the right one and the first failure ends the evaluation. A
divisor fails by its value, however it is written.
-/

set_option autoImplicit false

namespace Calculator

/-- Why an expression has no value. -/
inductive EvalError where
  /-- A variable is not bound; `suggestions` are the similar names that are. -/
  | unboundVariable (name : String) (suggestions : List String)
  /-- A divisor equals zero. -/
  | divisionByZero
deriving DecidableEq, Repr

namespace EvalError

def message : EvalError → String
  | .unboundVariable name _ => "unbound variable `" ++ name ++ "`"
  | .divisionByZero => "division by zero"

/-- The label of each region that the error points at. -/
def label : EvalError → String
  | .unboundVariable name _ => "`" ++ name ++ "` has no value in this context"
  | .divisionByZero => "the divisor evaluates to zero"

/-- How to mend the input, where there is something to say. -/
def help? : EvalError → Option String
  | .unboundVariable name [] => some ("bind a value first, for example `" ++ name ++ " = 1`")
  | .unboundVariable _ suggestions =>
      let names := suggestions.map fun name => "`" ++ name ++ "`"
      some ("did you mean one of: " ++ ", ".intercalate names ++ "?")
  | .divisionByZero => none

end EvalError

namespace Context

variable {α : Type}

/-- The value of a name, or the error that it has none. -/
def lookup (context : Context α) (name : String) : Except EvalError α :=
  match context.find? name with
  | some value => .ok value
  | none => .error (.unboundVariable name (similarNames context name))

end Context

namespace Operator

variable {α : Type} [Arithmetic α]

/-- The result of an operation on two numbers, or the error that it has none. -/
def result (operator : Operator) (lhs rhs : α) : Except EvalError α :=
  match operator with
  | .add => .ok (lhs + rhs)
  | .sub => .ok (lhs - rhs)
  | .mul => .ok (lhs * rhs)
  | .div => if rhs == 0 then .error .divisionByZero else .ok (lhs / rhs)

end Operator

namespace Expr

variable {α : Type} [Arithmetic α]

def evaluate (context : Context α) : Expr α → Except EvalError α
  | .num value => .ok value
  | .var name => Context.lookup context name
  | .binary operator lhs rhs => do
      let lhsValue ← lhs.evaluate context
      let rhsValue ← rhs.evaluate context
      operator.result lhsValue rhsValue

end Expr

end Calculator
