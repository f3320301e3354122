import Calculator.Text.Blank

/-!
# Commands

A line of input is an expression to evaluate, an assignment, or a command that
begins with a colon. Blanks at both ends of a line and around its parts do not
matter. The expressions inside a command are not parsed here.
-/

set_option autoImplicit false

namespace Calculator

/-- What a line asks for. -/
inductive Command where
  | eval (expression : String)
  | assign (name expression : String)
  | simplify (expression : String)
  | steps (expression : String)
  /-- Differentiate an expression with respect to a variable, then simplify it. -/
  | deriv (variableName expression : String)
  | vars
  | clear
  | help
deriving DecidableEq, Repr

/-- Why a line is no command. -/
inductive CommandError where
  /-- No command has this word. -/
  | unknown (word : String)
  /-- A command, or the sign of an assignment, lacks an argument. -/
  | missingArgument (command argument : String)
  /-- What stands before the sign of an assignment is no name. -/
  | invalidTarget (target : String)
deriving DecidableEq, Repr

namespace CommandError

def message : CommandError → String
  | .unknown word => "unknown command `:" ++ word ++ "`; type `:help` for a list of commands"
  | .missingArgument command argument => "`" ++ command ++ "` is missing its " ++ argument
  | .invalidTarget target =>
      "cannot assign to `" ++ target ++ "`; only variable names can be assigned to"

end CommandError

namespace Command

/-- The lines of the list of commands. -/
def helpLines : List String :=
  ["<expr>               evaluate a fully parenthesized expression, such as ((x*x) + 1)",
   "<name> = <expr>      evaluate an expression and bind the result to a variable",
   ":simplify <expr>     simplify an expression",
   ":steps <expr>        simplify an expression, listing the rules applied",
   ":deriv <name> <expr> differentiate an expression with respect to a variable, then " ++
     "simplify it",
   ":vars                list the bound variables",
   ":clear               remove every bound variable",
   ":help                show this message"]

/-- Whether a text is the name of a variable. -/
def isName : List Char → Bool
  | [] => false
  | first :: rest =>
      (first.isAlpha || first == '_') &&
        rest.all fun character => character.isAlphanum || character == '_'

/-- An argument without the blanks around it, which must not be empty. -/
def require (argument : List Char) (command description : String) :
    Except CommandError (List Char) :=
  match trim argument with
  | [] => .error (.missingArgument command description)
  | trimmed => .ok trimmed

/-- The command of a word and its argument. -/
def ofWord (word argument : List Char) : Except CommandError Command :=
  match String.ofList word with
  | "simplify" => do
      return .simplify (String.ofList (← require argument ":simplify" "expression"))
  | "steps" => do
      return .steps (String.ofList (← require argument ":steps" "expression"))
  | "deriv" => do
      let argument ← require argument ":deriv" "variable name"
      let (variableName, expression) := splitFirst isBlank argument
      if isName variableName then
        return .deriv (String.ofList variableName)
          (String.ofList (← require expression ":deriv" "expression"))
      else throw (.missingArgument ":deriv" "variable name")
  | "vars" => .ok .vars
  | "clear" => .ok .clear
  | "help" => .ok .help
  | other => .error (.unknown other)

def ofAssignment (target expression : List Char) : Except CommandError Command := do
  let target := trim target
  if isName target then
    return .assign (String.ofList target)
      (String.ofList (← require expression "=" "expression"))
  else throw (.invalidTarget (String.ofList target))

/-- The command of a line. An equals sign belongs to no expression, so the first
one makes an assignment, unless a colon begins the line. -/
def ofLine (line : List Char) : Except CommandError Command :=
  match trim line with
  | ':' :: rest =>
      let (word, argument) := splitFirst isBlank rest
      ofWord word argument
  | trimmed =>
      match splitFirst? (· == '=') trimmed with
      | some (target, expression) => ofAssignment target expression
      | none => .ok (.eval (String.ofList trimmed))

def parse (line : String) : Except CommandError Command :=
  ofLine line.toList

/-- The expression in a command, as text. -/
def source? : Command → Option String
  | .eval expression | .assign _ expression | .simplify expression | .steps expression
  | .deriv _ expression => some expression
  | .vars | .clear | .help => none

/-- The text that errors of a line point into: its expression, or all of it where
it has none. -/
def sourceOf (line : String) : String :=
  match parse line with
  | .ok command => command.source?.getD line
  | .error _ => line

end Command

end Calculator
