/-
# Solving

From a written formula to reports: the formula is read in its format, encoded
against its own variables, and decided by each procedure chosen. The first
fault ends all this, and is the answer.
-/

import Clausal.Dimacs.Reader
import Clausal.Expression.Parser
import Clausal.Report

namespace Clausal

/-- Why a source has no reports. -/
inductive SolveError where
  | read (cause : ReadError)
  | dimacs (cause : Dimacs.Error)
  | formula (cause : FormulaError)
deriving DecidableEq

def SolveError.message : SolveError → String
  | read cause => cause.message
  | dimacs cause => cause.message
  | formula cause => cause.message

/-- Read a formula in its format. -/
def InputFormat.parse (format : InputFormat) (text : String) : Except SolveError Formula :=
  match format with
  | .expression => (Expression.parse text).mapError fun cause => .formula (.malformed cause)
  | .dimacs => (Dimacs.parseText text).mapError .dimacs

namespace Settings

/-- The matrix of a written formula. -/
def matrixOf (settings : Settings) (text : String) : Except SolveError ClauseMatrix := do
  let f ← settings.format.parse text
  (ClauseMatrix.ofFormula f settings.tautologies).mapError .formula

/-- The reports on a written formula. -/
def solve (settings : Settings) (name text : String) : Except SolveError (List Report) := do
  let m ← settings.matrixOf text
  return settings.solver.procedures.map fun procedure => procedure.report name m

/-- The reports on the formula in a stream, which is read to its end first. -/
def solveStream (settings : Settings) (name : String) (s : ByteStream) :
    Except SolveError (List Report) := do
  let text ← s.contents.mapError .read
  settings.solve name text

end Settings

/-- The variables of an expression, which are the columns of its matrix. -/
def Expression.vars (text : String) : Except FormulaError (List Variable) :=
  ((Expression.parse text).map Formula.vars).mapError .malformed

/-- The matrix of an expression against given columns, without tautologies. -/
def ClauseMatrix.encodeExpression (columns : List Variable) (text : String) :
    Except FormulaError ClauseMatrix := do
  let f ← (Expression.parse text).mapError .malformed
  encode columns f .reject

/-- Encode an expression against its own variables and decide it by one
procedure. The text is read once for the columns and once for the rows. -/
def Procedure.decideExpression (procedure : Procedure) (text : String) :
    Except FormulaError Bool := do
  let columns ← Expression.vars text
  let m ← ClauseMatrix.encodeExpression columns text
  return (procedure.run m).1.toBool

end Clausal
