/-
# From matrices back to formulas

Reading a matrix against its columns gives a formula: each row lists the
literals of its cells, in the order of the columns. Encoding that formula gives
the matrix again, so every matrix of the right width is an encoding.
-/

import Clausal.Formula.Truth
import Clausal.Matrix.Encoding

namespace Clausal

/-- The literals of the cells that are not absent. -/
def Row.decode (columns : List Variable) (row : Row) : Clause :=
  ⟨(columns.zip row).filterMap fun (v, cell) => cell.map fun sign => ⟨sign, v⟩⟩

/-- The formula whose clauses are the rows of a matrix. -/
def ClauseMatrix.decode (columns : List Variable) (m : ClauseMatrix) : Formula :=
  ⟨m.rows.map fun row => row.decode columns⟩

/-- The signs that a valuation gives to the columns. -/
def Valuation.signs (valuation : Valuation) (columns : List Variable) : Assignment :=
  columns.map fun v => Sign.ofBool (valuation v)

end Clausal
