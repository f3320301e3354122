import Calculator.Report
import Calculator.Session

/-!
# Scripts

A script is run line by line in one session. Blank lines and lines that begin with
`#` are skipped, and a failing line does not stop the ones after it; it only makes
the script fail as a whole.
-/

set_option autoImplicit false

namespace Calculator

/-- How a failing line is shown. -/
inductive Diagnostic where
  | line (text : String)
  /-- A report with the expression of the line as its source. -/
  | report (report : Report)
deriving DecidableEq, Repr

/-- Something printed while a script runs. -/
inductive Printed where
  | output (line : String)
  | failure (diagnostic : Diagnostic)
deriving DecidableEq, Repr

namespace LineError

/-- How an error of a line is shown. An evaluation error points at the whole
source. -/
def diagnostic (source : String) : LineError → Diagnostic
  | .command error => .line ("error: " ++ error.message)
  | .parse error => .report (.ofParseError source error)
  | .eval error => .report (.ofEvalError source [sourceSpan source] error)

end LineError

/-- Everything printed by a script, in order. -/
structure Transcript where
  printed : List Printed
deriving DecidableEq, Repr

namespace Transcript

def output (transcript : Transcript) : List String :=
  transcript.printed.filterMap fun
    | .output line => some line
    | .failure _ => none

def failures (transcript : Transcript) : List Diagnostic :=
  transcript.printed.filterMap fun
    | .output _ => none
    | .failure diagnostic => some diagnostic

/-- The output as a text, each line with a line feed after it. -/
def outputText (transcript : Transcript) : String :=
  String.join (transcript.output.map fun line => line ++ "\n")

/-- Zero if no line failed, one otherwise. -/
def exitCode (transcript : Transcript) : Nat :=
  if transcript.failures.isEmpty then 0 else 1

end Transcript

namespace Script

variable {α : Type} [Arithmetic α] [Numeral α]

/-- Whether a line without outer blanks is skipped. -/
def isSkipped : List Char → Bool
  | [] => true
  | first :: _ => first == '#'

/-- The lines of a script that are run, without outer blanks. -/
def lines (text : String) : List String :=
  (((splitAtLineFeeds text.toList).map trim).filter (!isSkipped ·)).map String.ofList

/-- Runs one line: what it prints, and the session after it. -/
def runLine (session : Session α) (line : String) : List Printed × Session α :=
  match Session.runLine line session with
  | .ok output session => (output.map .output, session)
  | .error error session => ([.failure (error.diagnostic (Command.sourceOf line))], session)

/-- Runs lines in order: what they print, and the session after them. -/
def runLines : Session α → List String → List Printed × Session α
  | session, [] => ([], session)
  | session, line :: rest =>
      let (printed, session) := runLine session line
      let (printedRest, session) := runLines session rest
      (printed ++ printedRest, session)

/-- Runs a script in a session without bindings. -/
def run (α : Type) [Arithmetic α] [Numeral α] (text : String) : Transcript :=
  ⟨(runLines (Session.new (α := α)) (lines text)).1⟩

end Script

/-- Where a script comes from. -/
inductive ScriptSource where
  | standardInput
  | file (path : String)
deriving DecidableEq, Repr

/-- Why a script cannot be read. -/
inductive Unreadable where
  /-- The bytes are no text in UTF-8. -/
  | invalidText
  | missing
  | other (reason : String)
deriving DecidableEq, Repr

namespace Unreadable

/-- Why a script cannot be read, in words. -/
def reason : Unreadable → String
  | .invalidText => "stream did not contain valid UTF-8"
  | .missing => "No such file or directory (os error 2)"
  | .other reason => reason

end Unreadable

namespace ScriptSource

/-- The name of a source in messages. -/
def text : ScriptSource → String
  | .standardInput => "stdin"
  | .file path => "`" ++ path ++ "`"

/-- What is printed for a source that cannot be read. -/
def refuse (source : ScriptSource) (failure : Unreadable) : Transcript :=
  ⟨[.failure (.line ("error: could not read " ++ source.text ++ ": " ++ failure.reason))]⟩

/-- Runs the script that a source holds, given what reading its bytes gave. -/
def execute (α : Type) [Arithmetic α] [Numeral α] (source : ScriptSource)
    (contents : Except Unreadable ByteArray) : Transcript :=
  match contents with
  | .error failure => source.refuse failure
  | .ok bytes =>
      match String.fromUTF8? bytes with
      | none => source.refuse .invalidText
      | some text => Script.run α text

end ScriptSource

end Calculator
