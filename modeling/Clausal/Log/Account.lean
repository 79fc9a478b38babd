/-
# Accounts of the operations

The events of each operation in the order in which they happen. They are a
second view of the same runs: what an operation returns does not depend on
them, and an operation that fails still has the events up to its failure.
-/

import Clausal.Log.Event
import Clausal.Solve

namespace Clausal

/-- A file that cannot be read has no events. -/
def Dimacs.eventsOfResult (result : Except Dimacs.Error Formula) : List Event :=
  match result with
  | .ok f => [.fileRead f.clauses.length]
  | .error _ => []

/-- The events of reading a formula. Reading an expression has none. -/
def InputFormat.parseEvents (format : InputFormat) (text : String) : List Event :=
  match format with
  | .expression => []
  | .dimacs => Dimacs.eventsOfResult (Dimacs.parseText text)

/-- The events of encoding: one for each clause left out. -/
def Encoding.events (encoding : Encoding) : List Event :=
  encoding.dropped.map .clauseDropped

/-- The events of a case split: the ends of its branches, then its own. -/
def ClauseMatrix.splitEvents (m : ClauseMatrix) : List Event :=
  let tree := m.split
  tree.leaves.map .branchEnded ++ [.splitEnded m tree.size tree.satisfiable]

/-- The events of a search that starts from an empty stack. -/
def ClauseMatrix.searchEvents (m : ClauseMatrix) : List Event :=
  let (found, trail) := Trail.empty.search m
  trail.accepted.map .assignmentAccepted ++ [.searchEnded m trail.checked found]

def Procedure.events (procedure : Procedure) (m : ClauseMatrix) : List Event :=
  match procedure with
  | .splitting => m.splitEvents
  | .backtracking => m.searchEvents

/-- The complaint that two procedures differ, if they do. One procedure on its own
has nothing to be compared with. -/
def Solver.disagreement (solver : Solver) (name : String) (m : ClauseMatrix) : List Event :=
  match solver with
  | .only _ => []
  | .both =>
      let splitting := (Procedure.splitting.run m).1
      let backtracking := (Procedure.backtracking.run m).1
      if splitting = backtracking then [] else [.verdictsDiffer name splitting backtracking]

/-- The events of solving a written formula. -/
def Settings.solveEvents (settings : Settings) (name text : String) : List Event :=
  settings.format.parseEvents text ++
    match settings.format.parse text with
    | .error _ => []
    | .ok f =>
        let encoding := Encoding.ofFormula f.vars f settings.tautologies
        encoding.events ++
          match encoding.result with
          | .error _ => []
          | .ok m =>
              [.problemEncoded name m, .matrixShown name m] ++
                (settings.solver.procedures.flatMap fun procedure => procedure.events m) ++
                  settings.solver.disagreement name m

/-- The events of solving a stream. One that cannot be read has none. -/
def Settings.solveStreamEvents (settings : Settings) (name : String) (s : ByteStream) :
    List Event :=
  match s.contents with
  | .error _ => []
  | .ok text => settings.solveEvents name text

/-- The events of deciding an expression. -/
def Procedure.decideExpressionEvents (procedure : Procedure) (text : String) : List Event :=
  match Expression.parse text with
  | .error _ => []
  | .ok f =>
      match ClauseMatrix.ofFormula f .reject with
      | .error _ => []
      | .ok m => procedure.events m

end Clausal
