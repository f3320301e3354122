import Calculator.Number.Double
import Calculator.Script

/-!
# Command line

With an argument the calculator runs the script in that file. Without one it runs
the script on standard input, or, at a terminal, the lines that are typed in.
-/

set_option autoImplicit false

namespace Calculator.CommandLine

/-- The lines of a report as they are printed. -/
def reportLines (report : Report) : List String :=
  [report.heading] ++
    (report.position?.map fun position => "  at " ++ position.text).toList ++
    (report.labels.map fun label => "  - " ++ label) ++
    (report.help?.map fun help => "  help: " ++ help).toList

def print : Printed → IO Unit
  | .output line => IO.println line
  | .failure (.line text) => IO.eprintln text
  | .failure (.report report) => (reportLines report).forM fun line => IO.eprintln line

/-- Prints a transcript and gives its exit code. -/
def finish (transcript : Transcript) : IO UInt32 := do
  transcript.printed.forM print
  return transcript.exitCode.toUInt32

def readFile (path : String) : IO (Except Unreadable ByteArray) := do
  try
    return .ok (← IO.FS.readBinFile path)
  catch
    | .noFileOrDirectory _ _ _ => return .error .missing
    | failure => return .error (.other (toString failure))

/-- The bytes of a stream up to its end. -/
partial def readStream (stream : IO.FS.Stream) (bytes : ByteArray) : IO ByteArray := do
  let more ← stream.read 65536
  if more.isEmpty then return bytes else readStream stream (bytes ++ more)

/-- Runs the lines typed at a terminal until the input ends. -/
partial def interact (input : IO.FS.Stream) (session : Session Float) : IO Unit := do
  IO.print "> "
  (← IO.getStdout).flush
  let line ← input.getLine
  if line.isEmpty then return
  if (trim line.toList).isEmpty then interact input session
  else
    let (printed, session) := Script.runLine session line
    printed.forM print
    interact input session

end Calculator.CommandLine

open Calculator Calculator.CommandLine in
def main (arguments : List String) : IO UInt32 := do
  match arguments with
  | path :: _ => finish (ScriptSource.execute Float (.file path) (← readFile path))
  | [] =>
      let input ← IO.getStdin
      if ← input.isTty then
        IO.println "type `:help` for a list of commands"
        interact input Session.new
        return 0
      else
        let bytes ← readStream input ByteArray.empty
        finish (ScriptSource.execute Float .standardInput (.ok bytes))
