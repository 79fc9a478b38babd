/-
# Reports

One report for each procedure that has been run: what it was run on, what it
found and how much work that took. The time it took is not part of the report,
since it is no function of the problem; it is added where the line is written.
-/

import Clausal.Search.Backtracking
import Clausal.Search.Splitting
import Clausal.Settings
import Clausal.Text.Fixed

namespace Clausal

/-- A span of time: whole seconds, and nanoseconds below a second. -/
structure Elapsed where
  seconds : UInt64
  nanoseconds : UInt32
deriving DecidableEq

namespace Elapsed

def zero : Elapsed := ⟨0, 0⟩

/-- The time in seconds, as a sum of two rounded parts. -/
def toFloat (elapsed : Elapsed) : Float :=
  elapsed.seconds.toFloat + elapsed.nanoseconds.toFloat / 1e9

/-- The time in seconds with six decimal places. -/
def write (elapsed : Elapsed) : String :=
  Text.writeFixed 6 elapsed.toFloat

end Elapsed

/-- What a procedure made of a problem. -/
structure Report where
  name : String
  variableCount : Nat
  clauseCount : Nat
  solver : Solver
  verdict : Verdict
  /-- Nodes of the tree, or complete assignments checked. -/
  work : Nat
deriving DecidableEq

/-- The line in which a report is shown. It leaves out the work. -/
def Report.line (report : Report) (elapsed : Elapsed) : String :=
  " ".intercalate
    [report.name, toString report.variableCount, toString report.clauseCount, report.solver.name,
      report.verdict.word, elapsed.write]

namespace Procedure

/-- Run a procedure on a matrix: its verdict, and the work it counted. -/
def run (procedure : Procedure) (m : ClauseMatrix) : Verdict × Nat :=
  match procedure with
  | .splitting =>
      let (verdict, splitter) := (Splitter.new m).solve
      (verdict, splitter.nodes)
  | .backtracking =>
      let (verdict, backtracker) := (Backtracker.new m).solve
      (verdict, backtracker.assignments)

def report (procedure : Procedure) (name : String) (m : ClauseMatrix) : Report :=
  let (verdict, work) := procedure.run m
  { name, variableCount := m.width, clauseCount := m.rows.length
    solver := .only procedure, verdict, work }

end Procedure

end Clausal
