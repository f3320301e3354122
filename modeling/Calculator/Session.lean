import Calculator.Command
import Calculator.Derivative
import Calculator.Evaluation
import Calculator.Expr.Reading
import Calculator.Expr.Text
import Calculator.Simplification

/-!
# Sessions

What is kept from one line of input to the next: the bindings made so far. A line
prints something or fails, and there is a session after it in either case.
-/

set_option autoImplicit false

namespace Calculator

/-- Why a line fails. -/
inductive LineError where
  | command (error : CommandError)
  | parse (error : ParseError)
  | eval (error : EvalError)
deriving DecidableEq, Repr

/-- The state between two lines of input. -/
structure Session (α : Type) where
  context : Context α

/-- An action on a session that gives a value or fails. -/
abbrev SessionM (α β : Type) := EStateM LineError (Session α) β

namespace Session

variable {α : Type}

def new : Session α :=
  ⟨NameMap.empty⟩

variable [Arithmetic α] [Numeral α]

/-- The expression of a text, for a line of input. -/
def read (text : String) : Except LineError (Expr α) :=
  (Expr.ofText text).mapError .parse

/-- The value of a text under the bindings of a session. -/
def value (session : Session α) (text : String) : Except LineError α := do
  (← read text).evaluate session.context |>.mapError .eval

/-- A name and its value, as they are shown. -/
def bindingText (name : String) (value : α) : String :=
  name ++ " = " ++ Numeral.text value

/-- The bindings of a listing as they are shown, in order of the names. -/
def bindingLines (listing : List (String × α)) : List String :=
  (listing.mergeSort fun first second => first.1 ≤ second.1).map fun (name, value) =>
    bindingText name value

/-- The rules of a list, numbered from one. -/
def numberedRules (rules : List Rule) : List String :=
  rules.zipIdx.map fun (rule, index) => toString (index + 1) ++ ". " ++ rule.text

/-- Runs a command and gives the lines to print. -/
def run : Command → SessionM α (List String)
  | .eval expression => do
      let value ← MonadExcept.ofExcept ((← get).value expression)
      return [Numeral.text value]
  | .assign name expression => do
      let value ← MonadExcept.ofExcept ((← get).value expression)
      modify fun session => ⟨session.context.insert name value⟩
      return [bindingText name value]
  | .simplify expression => do
      let expr ← MonadExcept.ofExcept (read (α := α) expression)
      return [expr.simplify.text]
  | .steps expression => do
      let expr ← MonadExcept.ofExcept (read (α := α) expression)
      let (result, rules) := expr.simplifyWithSteps
      return numberedRules rules ++ [result.text]
  | .deriv variableName expression => do
      let expr ← MonadExcept.ofExcept (read (α := α) expression)
      return [(expr.derivative variableName).simplify.text]
  | .vars => return bindingLines (← get).context.entries
  | .clear => do
      set (new (α := α))
      return []
  | .help => return Command.helpLines

def runLine (line : String) : SessionM α (List String) := do
  run (← MonadExcept.ofExcept ((Command.parse line).mapError .command))

end Session

end Calculator
