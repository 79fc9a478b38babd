/-
# Formulas as sets of clauses

Clauses and literals are kept in lists, but what they mean is a set of sets. Two formulas that
are the same set of clauses mention the same variables, so their matrices have the same
columns, and the clauses without a complementary pair give the same rows, though in another
order and number. Neither search can tell the difference, and where pairs are refused both
formulas are refused, though perhaps for another clause.
-/

import Clausal.Proofs.Decision
import Clausal.Proofs.Matrix.Cells
import Clausal.Proofs.Search.Weakening
import Mathlib.Data.Finset.Dedup

namespace Clausal

namespace Clause

variable {c d : Clause}

/-- Whether a clause holds a pair depends on which literals it has. -/
theorem isTautological_congr (sameLiterals : ∀ l, l ∈ c.literals ↔ l ∈ d.literals) :
    c.isTautological = d.isTautological := by
  rw [Bool.eq_iff_iff, isTautological_iff, isTautological_iff]
  simp only [sameLiterals]

/-- Without a pair, so does its row. -/
theorem row_congr (sameLiterals : ∀ l, l ∈ c.literals ↔ l ∈ d.literals)
    (consistent : c.isTautological = false) (columns : List Variable) :
    c.row columns = d.row columns := by
  have otherConsistent : d.isTautological = false :=
    (isTautological_congr sameLiterals).symm.trans consistent
  apply List.map_congr_left
  intro v _
  rw [cell_of_not_isTautological consistent, cell_of_not_isTautological otherConsistent]
  simp only [sameLiterals]

end Clause

namespace Formula

/-- The clauses as a set, and each of them as a set of literals. -/
def clauseSet (f : Formula) : Finset (Finset Literal) :=
  (f.clauses.map fun c => c.literals.toFinset).toFinset

variable {f g : Formula}

/-- Each clause is found in the other formula, with the same literals. -/
theorem exists_of_clauseSet_eq (sameSet : f.clauseSet = g.clauseSet) {c : Clause}
    (present : c ∈ f.clauses) : ∃ d ∈ g.clauses, ∀ l, l ∈ c.literals ↔ l ∈ d.literals := by
  have inSet : c.literals.toFinset ∈ g.clauseSet := by
    rw [← sameSet, clauseSet, List.mem_toFinset]
    exact List.mem_map_of_mem present
  rw [clauseSet, List.mem_toFinset, List.mem_map] at inSet
  rcases inSet with ⟨d, inOther, sameLiterals⟩
  refine ⟨d, inOther, fun l => ?_⟩
  rw [← List.mem_toFinset, ← List.mem_toFinset, sameLiterals]

theorem var_mem_vars_of_clauseSet_eq (sameSet : f.clauseSet = g.clauseSet) {v : Variable}
    (mentioned : v ∈ f.vars) : v ∈ g.vars := by
  obtain ⟨c, present, l, inClause, rfl⟩ := mem_vars.mp mentioned
  obtain ⟨d, inOther, sameLiterals⟩ := exists_of_clauseSet_eq sameSet present
  exact g.var_mem_vars d inOther l ((sameLiterals l).mp inClause)

theorem vars_eq_of_clauseSet_eq (sameSet : f.clauseSet = g.clauseSet) : f.vars = g.vars := by
  apply Variable.eq_of_ascending f.ascending_vars g.ascending_vars
  intro v
  exact ⟨var_mem_vars_of_clauseSet_eq sameSet, var_mem_vars_of_clauseSet_eq sameSet.symm⟩

/-- The rows of one formula are among those of the other. -/
theorem rows_matrix_subset_of_clauseSet_eq (sameSet : f.clauseSet = g.clauseSet) :
    (f.matrix f.vars).rows ⊆ (g.matrix g.vars).rows := by
  rw [vars_eq_of_clauseSet_eq sameSet]
  intro row inMatrix
  obtain ⟨c, present, consistent, rfl⟩ := mem_rows_matrix.mp inMatrix
  obtain ⟨d, inOther, sameLiterals⟩ := exists_of_clauseSet_eq sameSet present
  refine mem_rows_matrix.mpr ⟨d, inOther, ?_, (Clause.row_congr sameLiterals consistent _).symm⟩
  exact (Clause.isTautological_congr sameLiterals).symm.trans consistent

/-- Where pairs are refused, they are refused in both formulas. -/
theorem fault?_vars_eq_none_of_clauseSet_eq {policy : TautologyPolicy}
    (sameSet : f.clauseSet = g.clauseSet) (faultless : f.fault? f.vars policy = none) :
    g.fault? g.vars policy = none := by
  rw [fault?_vars_eq_none_iff] at faultless ⊢
  intro refused d present
  obtain ⟨c, inOther, sameLiterals⟩ := exists_of_clauseSet_eq sameSet.symm present
  exact (Clause.isTautological_congr sameLiterals).trans (faultless refused c inOther)

end Formula

namespace ClauseMatrix

/-- Two formulas that are the same set of clauses, each taken as a set of literals, are
encoded alike: either both get a matrix, with as many columns, and each search gives the same
verdict for the same work on both; or both are refused for a variable that one of their
clauses holds in both ways. -/
theorem ofFormula_alike_of_clauseSet_eq (f g : Formula) (policy : TautologyPolicy)
    (sameSet : f.clauseSet = g.clauseSet) :
    (∃ m n, ofFormula f policy = .ok m ∧ ofFormula g policy = .ok n ∧ m.width = n.width ∧
        ∀ procedure : Procedure, procedure.run m = procedure.run n) ∨
      ∃ i u j v, ofFormula f policy = .error (.inconsistentClause i u) ∧
        ofFormula g policy = .error (.inconsistentClause j v) := by
  rw [ofFormula_eq, ofFormula_eq]
  cases faulty : f.fault? f.vars policy with
  | none =>
      rw [Formula.fault?_vars_eq_none_of_clauseSet_eq sameSet faulty]
      have sameWidth : (f.matrix f.vars).width = (g.matrix g.vars).width :=
        congrArg List.length (Formula.vars_eq_of_clauseSet_eq sameSet)
      refine Or.inl ⟨f.matrix f.vars, g.matrix g.vars, rfl, rfl, sameWidth, ?_⟩
      exact run_eq_of_weakens sameWidth
        (Weakens.of_subset (Formula.rows_matrix_subset_of_clauseSet_eq sameSet))
        (Weakens.of_subset (Formula.rows_matrix_subset_of_clauseSet_eq sameSet.symm))
  | some cause =>
      cases otherFaulty : g.fault? g.vars policy with
      | none =>
          have faultless := Formula.fault?_vars_eq_none_of_clauseSet_eq sameSet.symm otherFaulty
          cases faultless.symm.trans faulty
      | some otherCause =>
          obtain ⟨i, _, u, -, -, -, rfl⟩ :=
            Formula.exists_both_of_fault?_eq_some f.var_mem_vars faulty
          obtain ⟨j, _, v, -, -, -, rfl⟩ :=
            Formula.exists_both_of_fault?_eq_some g.var_mem_vars otherFaulty
          exact Or.inr ⟨i, u, j, v, rfl, rfl⟩

/-- A clause without a pair and one with a pair, both written in two ways and the first of them
twice. -/
theorem ofFormula_alike_of_clauseSet_eq_repeated_clause :
    let f : Formula := ⟨[⟨[.positive (.mk 1), .negative (.mk 2)]⟩,
      ⟨[.positive (.mk 3), .negative (.mk 3)]⟩]⟩
    let g : Formula := ⟨[⟨[.negative (.mk 3), .positive (.mk 3)]⟩,
      ⟨[.negative (.mk 2), .positive (.mk 1), .negative (.mk 2)]⟩,
      ⟨[.positive (.mk 1), .negative (.mk 2)]⟩]⟩
    f.clauseSet = g.clauseSet ∧
      (∃ m n, ofFormula f .drop = .ok m ∧ ofFormula g .drop = .ok n ∧ m.width = n.width ∧
        ∀ procedure : Procedure, procedure.run m = procedure.run n) ∧
      ∃ i u j v, ofFormula f .reject = .error (.inconsistentClause i u) ∧
        ofFormula g .reject = .error (.inconsistentClause j v) := by
  intro f g
  have sameSet : f.clauseSet = g.clauseSet := by decide
  have encoded : ofFormula f .drop =
      .ok ⟨3, [[some .positive, some .negative, none]], by decide⟩ := rfl
  have failed : ofFormula f .reject = .error (.inconsistentClause 1 (.mk 3)) := rfl
  refine ⟨sameSet, ?_, ?_⟩
  · apply (ofFormula_alike_of_clauseSet_eq f g .drop sameSet).resolve_right
    rintro ⟨i, u, j, v, refused, -⟩
    cases encoded.symm.trans refused
  · apply (ofFormula_alike_of_clauseSet_eq f g .reject sameSet).resolve_left
    rintro ⟨m, n, accepted, -⟩
    cases failed.symm.trans accepted

end ClauseMatrix

end Clausal
