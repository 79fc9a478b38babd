/-
# Clause matrices

The form of a formula on which the searches run. A row stands for a clause and
a column for a variable; a cell says with which sign the variable occurs in the
clause, if it occurs. The variables themselves are no longer part of it.

An assignment is a list of signs, one for each column. A row is satisfied when
some cell agrees with it, and a list shorter than the row is an assignment of
its first columns only, under which the row may be satisfied already.
-/

import Clausal.Formula.Error

namespace Clausal

/-- The sign with which a variable occurs in a clause, if it does. -/
abbrev Cell := Option Sign

namespace Cell

/-- The sign as a number, and zero for an absent variable. -/
def toInt : Cell → Int
  | some sign => sign.toInt
  | none => 0

/-- The number of the cell, set to the right in two places. -/
def write : Cell → String
  | some .negative => "-1"
  | none => " 0"
  | some .positive => " 1"

end Cell

/-- One cell for each column. -/
abbrev Row := List Cell

/-- A sign for each column, the first column first. -/
abbrev Assignment := List Sign

/-- Some cell has the sign that is assigned to its column. -/
def Row.satisfiedBy (row : Row) (assignment : Assignment) : Bool :=
  (row.zip assignment).any fun (cell, sign) => cell == some sign

/-- A rectangle of cells. Its width counts even where there are no rows. -/
structure ClauseMatrix where
  width : Nat
  rows : List Row
  length_row : ∀ row ∈ rows, row.length = width
deriving DecidableEq

namespace ClauseMatrix

/-- All rows are satisfied. -/
def satisfiedBy (m : ClauseMatrix) (assignment : Assignment) : Bool :=
  m.rows.all (·.satisfiedBy assignment)

/-- Some assignment of all columns satisfies all rows. -/
def Satisfiable (m : ClauseMatrix) : Prop :=
  ∃ assignment : Assignment, assignment.length = m.width ∧ m.satisfiedBy assignment = true

/-- The matrix of the given rows, which must have one cell for each column. The
first row that has not is the one complained about. -/
def ofRows (width : Nat) (rows : List Row) : Except Malformed ClauseMatrix :=
  match ragged : rows.zipIdx.find? fun (row, _) => row.length != width with
  | some (row, i) => .error (.raggedRow i row.length width)
  | none =>
      .ok {
        width, rows
        length_row := by
          intro row present
          obtain ⟨i, hi, rfl⟩ := List.mem_iff_getElem.mp present
          have even := List.find?_eq_none.mp ragged (rows[i], i)
            (List.mk_mem_zipIdx_iff_getElem?.mpr (List.getElem?_eq_getElem hi))
          simpa using even }

/-- The cells as numbers, row by row. -/
def toInts (m : ClauseMatrix) : List (List Int) :=
  m.rows.map fun row => row.map Cell.toInt

/-- Every row on a line of its own, cells separated by one blank. -/
def write (m : ClauseMatrix) : String :=
  String.join (m.rows.map fun row => " ".intercalate (row.map Cell.write) ++ "\n")

instance : ToString ClauseMatrix := ⟨write⟩

end ClauseMatrix

end Clausal
