import Calculator.Evaluation
import Calculator.ParseError
import Calculator.Text.Lines

/-!
# Reports

A report shows an error in its source: a heading, the place of the first region,
a label for each region, and an advice. Labels are paired with regions in order
and the shorter list wins. The place and the advice belong to the labelled
source, so an error without regions has only its heading.
-/

set_option autoImplicit false

namespace Calculator

structure Report where
  heading : String
  position? : Option Position
  labels : List String
  help? : Option String
deriving DecidableEq, Repr

namespace Report

def build (source : String) (spans : List Span) (message : String) (labels : List String)
    (help? : Option String) : Report where
  heading := "Error: " ++ message
  position? := spans.head?.map fun first => .ofOffset source first.start
  labels := (labels.zip spans).map Prod.fst
  help? := if spans.isEmpty then none else help?

def ofParseError (source : String) (error : ParseError) : Report :=
  build source error.spans error.fault.message error.fault.labels error.fault.help?

/-- The report of an evaluation error, which has one and the same label for every
region. -/
def ofEvalError (source : String) (spans : List Span) (error : EvalError) : Report :=
  build source spans error.message (spans.map fun _ => error.label) error.help?

end Report

def sourceSpan (source : String) : Span :=
  ⟨0, source.utf8ByteSize⟩

end Calculator
