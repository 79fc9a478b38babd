/-
# Satisfied rows

What it means for an assignment to satisfy a row, said through the columns, and
how it develops as an assignment grows. An assignment that is shorter than the
row may satisfy it already, and then every longer one does. A sign that is
added at the end satisfies a row further only through its own column.
-/

import Clausal.Matrix.Basic

namespace Clausal

namespace Row

@[simp]
theorem satisfiedBy_nil (row : Row) : row.satisfiedBy [] = false := by
  simp [satisfiedBy]

@[simp]
theorem nil_satisfiedBy (assignment : Assignment) : Row.satisfiedBy [] assignment = false := by
  simp [satisfiedBy]

@[simp]
theorem cons_satisfiedBy_cons (cell : Cell) (row : Row) (sign : Sign) (assignment : Assignment) :
    Row.satisfiedBy (cell :: row) (sign :: assignment) =
      (cell == some sign || row.satisfiedBy assignment) := by
  simp [satisfiedBy]

/-- A row is satisfied through a column in which it has the sign assigned. -/
theorem satisfiedBy_iff {row : Row} {assignment : Assignment} :
    row.satisfiedBy assignment = true ↔
      ∃ (column : Nat) (sign : Sign),
        row[column]? = some (some sign) ∧ assignment[column]? = some sign := by
  simp only [satisfiedBy, List.any_eq_true, List.mem_iff_getElem?, List.getElem?_zip_eq_some]
  apply Iff.intro
  · intro agreeing
    rcases agreeing with ⟨⟨cell, sign⟩, ⟨column, atCell, atSign⟩, agree⟩
    obtain rfl : cell = some sign := by simpa using agree
    exact ⟨column, sign, atCell, atSign⟩
  · intro agreeing
    rcases agreeing with ⟨column, sign, atCell, atSign⟩
    exact ⟨⟨some sign, sign⟩, ⟨column, atCell, atSign⟩, by simp⟩

/-- One more sign can only satisfy the row in the next column. -/
theorem satisfiedBy_append_singleton (row : Row) (path : Assignment) (sign : Sign) :
    row.satisfiedBy (path ++ [sign]) =
      (row.satisfiedBy path || row[path.length]? == some (some sign)) := by
  induction path generalizing row with
  | nil =>
      cases row with
      | nil => simp
      | cons cell row => simp
  | cons first path ih =>
      cases row with
      | nil => simp
      | cons cell row => simp [ih, Bool.or_assoc]

/-- What satisfies a row goes on satisfying it whatever signs are added. -/
theorem satisfiedBy_append {row : Row} {path : Assignment}
    (satisfied : row.satisfiedBy path = true) (rest : Assignment) :
    row.satisfiedBy (path ++ rest) = true := by
  obtain ⟨column, sign, atCell, atSign⟩ := satisfiedBy_iff.mp satisfied
  refine satisfiedBy_iff.mpr ⟨column, sign, atCell, ?_⟩
  obtain ⟨inPath, _⟩ := List.getElem?_eq_some_iff.mp atSign
  rw [List.getElem?_append_left inPath]
  exact atSign

end Row

namespace ClauseMatrix

theorem satisfiedBy_iff {m : ClauseMatrix} {assignment : Assignment} :
    m.satisfiedBy assignment = true ↔ ∀ row ∈ m.rows, row.satisfiedBy assignment = true := by
  simp [satisfiedBy]

/-- Satisfiability through the columns: in each row one of them has its sign. -/
theorem satisfiable_iff_columns {m : ClauseMatrix} :
    m.Satisfiable ↔
      ∃ assignment : Assignment, assignment.length = m.width ∧
        ∀ row ∈ m.rows, ∃ (column : Nat) (sign : Sign),
          row[column]? = some (some sign) ∧ assignment[column]? = some sign := by
  simp only [Satisfiable, satisfiedBy_iff, Row.satisfiedBy_iff]

end ClauseMatrix

end Clausal
