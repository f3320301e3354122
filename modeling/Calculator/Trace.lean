import Calculator.Expr.Reading
import Calculator.Expr.Text
import Calculator.Simplification
import Calculator.Text.Quoted

/-!
# Traces

What happens while a text is read and simplified, as a list of events: the tokens
are found, operations are read, nodes are rewritten.
-/

set_option autoImplicit false

namespace Calculator

/-- How much detail an event is. -/
inductive TraceLevel where
  | debug
  | trace
deriving DecidableEq, Repr

namespace TraceLevel

def name : TraceLevel → String
  | .debug => "DEBUG"
  | .trace => "TRACE"

end TraceLevel

/-- An event while a text is read and simplified. -/
inductive TraceEvent (α : Type) where
  /-- The text was cut into tokens; these are the texts of those that are not
  whitespace. -/
  | tokenized (lexemes : List String)
  /-- An operation was read from the region of its parentheses. -/
  | parsed (operation : Located Operator)
  /-- A node was rewritten. -/
  | rewritten (rewrite : Rewrite α)

namespace TraceEvent

variable {α : Type}

def level : TraceEvent α → TraceLevel
  | .tokenized _ => .trace
  | .parsed _ | .rewritten _ => .debug

/-- The fields of an event, by name. -/
def fields [Numeral α] : TraceEvent α → List (String × String)
  | .tokenized lexemes => [("message", "tokenized input"), ("tokens", quotedList lexemes)]
  | .parsed operation =>
      [("message", "parsed binary expression"),
       ("op", operation.value.text),
       ("span", toString operation.span.start ++ ".." ++ toString operation.span.stop)]
  | .rewritten rewrite =>
      [("message", "applied simplification rule"),
       ("step", rewrite.rule.text),
       ("input", rewrite.input.text),
       ("output", rewrite.output.text)]

end TraceEvent

namespace Expr

variable {α : Type} [Arithmetic α]

/-- Simplifies an expression and gives the events, in order. -/
def simplifyWithEvents (expr : Expr α) : Expr α × List (TraceEvent α) :=
  let (result, rewrites) := expr.simplifyWithRewrites
  (result, rewrites.map TraceEvent.rewritten)

variable [Numeral α]

/-- Reads a text and simplifies it, and gives the events of both. -/
def traceSimplify (source : String) : List (TraceEvent α) × Except ParseError (Expr α) :=
  let lexemes := ((tokenize source).filter (!·.isWhitespace)).map Token.lexeme
  let (parsed, operations) := ParseTree.parseCompleting (α := α) source
  let reading := .tokenized lexemes :: operations.map TraceEvent.parsed
  match parsed with
  | .error error => (reading, .error error)
  | .ok tree =>
      let (result, events) := (ofTree tree).simplifyWithEvents
      (reading ++ events, .ok result)

end Expr

end Calculator
