/-
# Outcomes

What a run of the program leaves behind: its exit status and the text of its
two outputs. All inputs are solved, whatever comes of the others, and only then
are their results looked at, one after the other. Each adds its lines to what
has been printed. An error also sets the status, while an unsatisfiable problem
does so only where it is still that of a success.
-/

import Clausal.CommandLine
import Clausal.Directory
import Clausal.Solve

namespace Clausal

/-- What solving one input gave: a report for each procedure with the time it
took, or an error. -/
abbrev InputResult := Except SolveError (List (Report × Elapsed))

/-- One report of an unsatisfiable problem is enough to count. -/
def anyUnsatisfiable (reports : List (Report × Elapsed)) : Bool :=
  reports.any fun (report, _) => report.verdict == .unsatisfiable

/-- What a run leaves behind. -/
structure Outcome where
  exitStatus : UInt8
  output : String
  errors : String
deriving DecidableEq

namespace Outcome

/-- The outcome before any result is looked at. -/
def initial : Outcome := ⟨0, "", ""⟩

def printReport (outcome : Outcome) : Report × Elapsed → Outcome
  | (report, elapsed) => { outcome with output := outcome.output ++ report.line elapsed ++ "\n" }

/-- Take one more result into account. -/
def add (outcome : Outcome) : InputResult → Outcome
  | .ok reports =>
      let printed := reports.foldl printReport outcome
      if anyUnsatisfiable reports && printed.exitStatus == 0 then { printed with exitStatus := 1 }
      else printed
  | .error cause =>
      { outcome with
        exitStatus := 255
        errors := outcome.errors ++ "error: " ++ cause.message ++ "\n" }

/-- The outcome of a run on any number of inputs. -/
def ofResults (results : List InputResult) : Outcome :=
  results.foldl add initial

/-- The line that names the program and its version. -/
def version : Outcome := ⟨0, "matsat 0.1.0\n", ""⟩

end Outcome

/-- The name under which the standard input is reported. -/
def standardInputName : String := "<stdin>"

namespace CommandLine.Command

/-- The named streams to solve, given how files are read. -/
def sources (inputs : List String) (readFile : String → ByteStream) (standardInput : ByteStream) :
    List (String × ByteStream) :=
  if inputs.isEmpty then [(standardInputName, standardInput)]
  else inputs.map fun path => (path, readFile path)

/-- Carry out a command in a directory, with all times set to zero. -/
def runIn (command : Command) (dir : Directory) (standardInput : ByteStream) : Outcome :=
  match command with
  | .showVersion => .version
  | .solve settings inputs =>
      .ofResults ((sources inputs dir.read standardInput).map fun (name, stream) =>
        (settings.solveStream name stream).map fun reports =>
          reports.map fun report => (report, .zero))

end CommandLine.Command

end Clausal
