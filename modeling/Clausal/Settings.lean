/-
# Settings

What can be chosen when a formula is solved: the procedures to run, the format
in which it is written, and what to do with tautologies. The first two are
chosen by name.
-/

import Clausal.Matrix.Encoding

namespace Clausal

/-- The procedures that decide a clause matrix. -/
inductive Procedure where
  | splitting
  | backtracking
deriving DecidableEq, Repr

/-- One procedure, or both for comparison. -/
inductive Solver where
  | only (procedure : Procedure)
  | both
deriving DecidableEq, Repr

/-- The ways to write a formula. -/
inductive InputFormat where
  | expression
  | dimacs
deriving DecidableEq, Repr

/-- A name that stands for nothing one could choose. -/
inductive UnknownName where
  | solver (name : String)
  | format (name : String)
deriving DecidableEq

def UnknownName.message : UnknownName → String
  | solver name => s!"unknown solver '{name}'"
  | format name => s!"unknown input format '{name}'"

namespace Solver

/-- All choices, in the order in which they are offered. -/
def all : List Solver := [only .splitting, only .backtracking, both]

/-- Case splitting goes by the name of the diagram it builds. -/
def name : Solver → String
  | only .splitting => "bdd"
  | only .backtracking => "backtrack"
  | both => "both"

def ofName (name : String) : Except UnknownName Solver :=
  match all.find? fun solver => solver.name == name with
  | some solver => .ok solver
  | none => .error (.solver name)

/-- The procedures to run, in order. -/
def procedures : Solver → List Procedure
  | only procedure => [procedure]
  | both => [.splitting, .backtracking]

end Solver

namespace InputFormat

/-- All choices, in the order in which they are offered. -/
def all : List InputFormat := [expression, dimacs]

def name : InputFormat → String
  | expression => "expr"
  | dimacs => "dimacs"

def ofName (name : String) : Except UnknownName InputFormat :=
  match all.find? fun format => format.name == name with
  | some format => .ok format
  | none => .error (.format name)

end InputFormat

/-- The choices for a run, with what holds when nothing is chosen. -/
structure Settings where
  solver : Solver := .only .splitting
  format : InputFormat := .expression
  tautologies : TautologyPolicy := .reject
deriving DecidableEq

end Clausal
