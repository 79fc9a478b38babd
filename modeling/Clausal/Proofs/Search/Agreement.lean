/-
# One verdict from both searches

Case splitting and backtracking share nothing but the matrix: one visits both
branches of a pruned tree and the other stops at the first complete assignment
that passes. Both decide whether the matrix is satisfiable, so they never
disagree.
-/

import Clausal.Proofs.Search.Backtracking
import Clausal.Proofs.Search.Splitting
import Clausal.Report

namespace Clausal

namespace ClauseMatrix

/-- Both searches give the same verdict on every matrix. It is satisfiable when
each column can be given a sign such that every row has a cell with the sign of
its column. -/
theorem split_eq_backtrack_and_satisfiable_iff (m : ClauseMatrix) :
    (Splitter.new m).solve.1 = (Backtracker.new m).solve.1 ∧
      ((Splitter.new m).solve.1 = .satisfiable ↔
        ∃ assignment : Assignment, assignment.length = m.width ∧
          ∀ row ∈ m.rows, ∃ (column : Nat) (sign : Sign),
            row[column]? = some (some sign) ∧ assignment[column]? = some sign) := by
  have splitting : (Splitter.new m).solve.1 = .satisfiable ↔ m.Satisfiable :=
    Splitter.solve_eq_satisfiable_iff
  have backtracking : (Backtracker.new m).solve.1 = .satisfiable ↔ m.Satisfiable :=
    Backtracker.solve_eq_satisfiable_iff rfl
  exact ⟨Verdict.eq_of_satisfiable_iff splitting backtracking,
    splitting.trans satisfiable_iff_columns⟩

end ClauseMatrix

/-- Each procedure decides whether a matrix is satisfiable. -/
theorem Procedure.run_eq_satisfiable_iff (procedure : Procedure) {m : ClauseMatrix} :
    (procedure.run m).1 = .satisfiable ↔ m.Satisfiable := by
  cases procedure with
  | splitting => exact Splitter.solve_eq_satisfiable_iff
  | backtracking => exact Backtracker.solve_eq_satisfiable_iff rfl

theorem Procedure.run_fst_eq (first second : Procedure) (m : ClauseMatrix) :
    (first.run m).1 = (second.run m).1 :=
  Verdict.eq_of_satisfiable_iff first.run_eq_satisfiable_iff second.run_eq_satisfiable_iff

end Clausal
