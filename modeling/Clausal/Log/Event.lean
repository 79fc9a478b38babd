/-
# Events

What happens inside the operations can be watched. An event has a level, which
says how much detail one must ask for to see it, and a text.
-/

import Clausal.Search.Backtracking
import Clausal.Search.Splitting

namespace Clausal

/-- How much detail is shown. Each level shows all that those before it do. -/
inductive Level where
  | error
  | debug
  | trace
deriving DecidableEq, Repr

namespace Level

def name : Level → String
  | error => "ERROR"
  | debug => "DEBUG"
  | trace => "TRACE"

def rank : Level → Nat
  | error => 0
  | debug => 1
  | trace => 2

/-- Whether events of the other level are shown at this one. -/
def shows (level other : Level) : Bool :=
  other.rank ≤ level.rank

end Level

/-- What is worth telling. -/
inductive Event where
  /-- A DIMACS file has been read. -/
  | fileRead (clauses : Nat)
  /-- A clause was left out as a tautology. -/
  | clauseDropped (clause : Nat)
  /-- A problem has been encoded. -/
  | problemEncoded (name : String) (matrix : ClauseMatrix)
  /-- The matrix of a problem. -/
  | matrixShown (name : String) (matrix : ClauseMatrix)
  /-- A branch of a case split has ended. -/
  | branchEnded (leaf : Leaf)
  /-- A case split is complete. -/
  | splitEnded (matrix : ClauseMatrix) (nodes : Nat) (satisfiable : Bool)
  /-- A complete assignment has passed the check. -/
  | assignmentAccepted (assignment : Assignment)
  /-- A search by backtracking is over. -/
  | searchEnded (matrix : ClauseMatrix) (assignments : Nat) (satisfiable : Bool)
  /-- Two procedures that were compared came to different verdicts. -/
  | verdictsDiffer (name : String) (splitting backtracking : Verdict)
deriving DecidableEq

namespace Event

def level : Event → Level
  | verdictsDiffer _ _ _ => .error
  | fileRead _ | problemEncoded _ _ | splitEnded _ _ _ | searchEnded _ _ _ => .debug
  | clauseDropped _ | matrixShown _ _ | branchEnded _ | assignmentAccepted _ => .trace

/-- The signs of an assignment as numbers in brackets. -/
def writeAssignment (assignment : Assignment) : String :=
  "[" ++ ", ".intercalate (assignment.map fun sign => toString sign.toInt) ++ "]"

def message : Event → String
  | fileRead clauses => s!"read {clauses} clauses from DIMACS input"
  | clauseDropped clause => s!"dropping tautological clause {clause}"
  | problemEncoded name m => s!"{name}: {m.width} variables, {m.rows.length} clauses"
  | matrixShown name m => s!"{name} clause matrix:\n" ++ m.write
  | branchEnded (.satisfied depth) => s!"node at literal {depth}: all clauses satisfied"
  | branchEnded (.unsatisfied depth rows) =>
      s!"node at literal {depth}: {rows} clauses left unsatisfied"
  | splitEnded m nodes satisfiable =>
      s!"bdd: {m.width} literals, {m.rows.length} clauses, {nodes} nodes, " ++
        s!"satisfiable = {satisfiable}"
  | assignmentAccepted assignment =>
      "satisfying assignment " ++ writeAssignment assignment
  | searchEnded m assignments satisfiable =>
      s!"backtrack: {m.width} literals, {m.rows.length} clauses, " ++
        s!"{assignments} assignments checked, satisfiable = {satisfiable}"
  | verdictsDiffer name splitting backtracking =>
      s!"{name}: solvers disagree (bdd {splitting.name}, backtrack {backtracking.name})"

end Event

end Clausal
