/-
# The matrix under new names

Variables are only names for columns. If different variables of a formula get different new
names, the encoder stops at the same place or not at all, and what it reports is the new name
of the variable that it reported before. The matrix has as many rows and columns as before.
Its columns may come in another order, and then each search goes through other cases, but the
verdict is that on the formula and depends on no order. Where the order is kept, so is the
matrix.
-/

import Clausal.Proofs.Decision
import Clausal.Proofs.Formula.Renaming
import Clausal.Proofs.Matrix.Offence
import Clausal.Proofs.Report
import Mathlib.Data.List.Find

namespace Clausal

section names

variable {name : Variable → Variable} {columns : List Variable} {c : Clause}

/-- A cell is found under the new name of its variable. -/
theorem Clause.cell_rename (distinct : Set.InjOn name {v | v ∈ columns})
    (covered : ∀ l ∈ c.literals, l.var ∈ columns) {v : Variable} (placed : v ∈ columns) :
    (c.rename name).cell (name v) = c.cell v := by
  rw [cell, cell, rename, List.find?_map, Option.map_map]
  have sameFind : (c.literals.find? fun l => (l.rename name).var = name v) =
      c.literals.find? fun l => l.var = v := by
    apply List.find?_congr
    intro l present
    have sameVar : name l.var = name v ↔ l.var = v := distinct.eq_iff (covered l present) placed
    exact decide_eq_decide.mpr sameVar
  exact congrArg (Option.map Literal.sign) sameFind

/-- With the columns renamed as well, a clause has the row it had. -/
theorem Clause.row_rename (distinct : Set.InjOn name {v | v ∈ columns})
    (covered : ∀ l ∈ c.literals, l.var ∈ columns) :
    (c.rename name).row (columns.map name) = c.row columns := by
  rw [row, row, List.map_map]
  apply List.map_congr_left
  intro v placed
  exact cell_rename distinct covered placed

end names

namespace Formula

variable {f : Formula} {name : Variable → Variable} {policy : TautologyPolicy}

/-- With the columns renamed as well, a formula has the matrix it had. -/
theorem matrix_rename (distinct : Set.InjOn name {v | v ∈ f.vars}) :
    (f.rename name).matrix (f.vars.map name) = f.matrix f.vars := by
  have sameRows : ((f.clauses.filter fun c => !c.isTautological).map (Clause.rename name)).map
      (fun c => c.row (f.vars.map name)) =
        (f.clauses.filter fun c => !c.isTautological).map fun c => c.row f.vars := by
    rw [List.map_map]
    apply List.map_congr_left
    intro c kept
    exact Clause.row_rename distinct (f.var_mem_vars c (List.mem_filter.mp kept).1)
  simp only [matrix, consistent_clauses_rename distinct, sameRows, List.length_map]

/-- The same places offend under the new names. -/
theorem offends_rename_iff (distinct : Set.InjOn name {v | v ∈ f.vars}) (clause place : Nat) :
    (f.rename name).Offends (f.rename name).vars policy clause place ↔
      f.Offends f.vars policy clause place := by
  cases inFormula : f.clauses[clause]? with
  | none => simp [Offends, inFormula]
  | some c =>
      cases inClause : c.literals[place]? with
      | none => simp [Offends, inFormula, inClause]
      | some l =>
          have renamedInFormula : (f.rename name).clauses[clause]? = some (c.rename name) := by
            simp [inFormula]
          have renamedInClause : (c.rename name).literals[place]? = some (l.rename name) := by
            simp [inClause]
          have clauseCovered := f.var_mem_vars c (List.mem_of_getElem? inFormula)
          have covered : l.var ∈ f.vars := clauseCovered l (List.mem_of_getElem? inClause)
          have renamedCovered : (l.rename name).var ∈ (f.rename name).vars :=
            mem_vars_rename_iff.mpr ⟨l.var, covered, rfl⟩
          have earlierCovered : ∀ k ∈ c.literals.take place, k.var ∈ f.vars :=
            fun k earlier => clauseCovered k (List.mem_of_mem_take earlier)
          -- The literals before a place are a clause of their own.
          have paired : (l.rename name).complement ∈ (c.rename name).literals.take place ↔
              l.complement ∈ c.literals.take place := by
            rw [Clause.rename, ← List.map_take]
            exact Clause.complement_mem_rename_iff (c := ⟨c.literals.take place⟩) distinct
              earlierCovered covered
          rw [offends_iff renamedInFormula renamedInClause, offends_iff inFormula inClause, paired]
          simp only [covered, renamedCovered, not_true_eq_false, false_or]

/-- The first place that offends is the same, and its variable is told by its new name. -/
theorem fault?_rename_of_eq_some (distinct : Set.InjOn name {v | v ∈ f.vars}) {clause : Nat}
    {v : Variable} (faulty : f.fault? f.vars policy = some (.inconsistentClause clause v)) :
    (f.rename name).fault? (f.rename name).vars policy =
      some (.inconsistentClause clause (name v)) := by
  obtain ⟨i, j, c, l, inFormula, inClause, offends, first, named⟩ :=
    fault?_eq_some_iff_first.mp faulty
  have covered : l.var ∈ f.vars :=
    f.var_mem_vars c (List.mem_of_getElem? inFormula) l (List.mem_of_getElem? inClause)
  have renamedCovered : (l.rename name).var ∈ (f.rename name).vars :=
    mem_vars_rename_iff.mpr ⟨l.var, covered, rfl⟩
  rw [if_neg (not_not_intro covered)] at named
  obtain ⟨rfl, rfl⟩ := FormulaError.inconsistentClause.inj named
  refine fault?_eq_some_iff_first.mpr ⟨clause, j, c.rename name, l.rename name, ?_, ?_,
    (offends_rename_iff distinct clause j).mpr offends, ?_, ?_⟩
  · simp [inFormula]
  · simp [inClause]
  · intro earlierClause earlierPlace before
    rw [offends_rename_iff distinct]
    exact first earlierClause earlierPlace before
  · rw [if_neg (not_not_intro renamedCovered)]
    rfl

/-- A formula without a fault has none under the new names. -/
theorem fault?_rename_of_eq_none (distinct : Set.InjOn name {v | v ∈ f.vars})
    (faultless : f.fault? f.vars policy = none) :
    (f.rename name).fault? (f.rename name).vars policy = none := by
  rw [fault?_vars_eq_none_iff] at faultless ⊢
  intro refused renamedClause inRenamed
  obtain ⟨c, present, rfl⟩ := List.mem_map.mp inRenamed
  rw [Clause.isTautological_rename distinct (f.var_mem_vars c present)]
  exact faultless refused c present

end Formula

namespace ClauseMatrix

/-- Renaming the variables of a formula, different ones differently, changes only names.
Either the formula and the renamed formula are both encoded, with as many rows and columns,
and each search gives them the same verdict; or both are refused for the same clause, one with
a variable and the other with its new name. If the renaming is increasing, the matrices are
equal. -/
theorem ofFormula_rename_changes_only_names (f : Formula) (name : Variable → Variable)
    (policy : TautologyPolicy) (distinct : Set.InjOn name {v | v ∈ f.vars}) :
    (∃ m n, ofFormula f policy = .ok m ∧ ofFormula (f.rename name) policy = .ok n ∧
        m.width = n.width ∧ m.rows.length = n.rows.length ∧
        (∀ procedure : Procedure, (procedure.run m).1 = (procedure.run n).1) ∧
        ((∀ u ∈ f.vars, ∀ v ∈ f.vars, u < v → name u < name v) → m = n)) ∨
      ∃ clause v, ofFormula f policy = .error (.inconsistentClause clause v) ∧
        ofFormula (f.rename name) policy = .error (.inconsistentClause clause (name v)) := by
  rw [ofFormula_eq, ofFormula_eq]
  cases faulty : f.fault? f.vars policy with
  | some cause =>
      obtain ⟨clause, c, v, -, -, -, rfl⟩ :=
        Formula.exists_both_of_fault?_eq_some f.var_mem_vars faulty
      rw [Formula.fault?_rename_of_eq_some distinct faulty]
      exact Or.inr ⟨clause, v, rfl, rfl⟩
  | none =>
      rw [Formula.fault?_rename_of_eq_none distinct faulty]
      refine Or.inl ⟨f.matrix f.vars, (f.rename name).matrix (f.rename name).vars, rfl, rfl,
        ?_, ?_, ?_, ?_⟩
      · show f.vars.length = (f.rename name).vars.length
        rw [(Formula.vars_rename_perm distinct).length_eq, List.length_map]
      · rw [Formula.length_rows_matrix, Formula.length_rows_matrix,
          Formula.consistent_clauses_rename distinct, List.length_map]
      · intro procedure
        apply Verdict.eq_of_satisfiable_iff procedure.run_eq_satisfiable_iff
        rw [procedure.run_eq_satisfiable_iff,
          satisfiable_matrix_iff (Formula.nodup_vars _) (Formula.var_mem_vars _),
          satisfiable_matrix_iff f.nodup_vars f.var_mem_vars,
          Formula.satisfiable_rename_iff distinct]
      · intro increasing
        rw [Formula.vars_rename_of_increasing increasing, Formula.matrix_rename distinct]

/-- Two variables that take each other's names, and the same two with new names in the old
order. The clause that holds a pair is left out, or it is reported. -/
theorem ofFormula_rename_changes_only_names_two_variables :
    let f : Formula := ⟨[⟨[.positive (.mk 1), .negative (.mk 2)]⟩,
      ⟨[.positive (.mk 2), .negative (.mk 2)]⟩]⟩
    let swap : Variable → Variable := fun v => if v = .mk 1 then .mk 2 else .mk 1
    let raise : Variable → Variable := fun v => if v = .mk 1 then .mk 4 else .mk 7
    Set.InjOn swap {v | v ∈ f.vars} ∧ Set.InjOn raise {v | v ∈ f.vars} ∧
      (∃ m n, ofFormula f .drop = .ok m ∧ ofFormula (f.rename swap) .drop = .ok n ∧
        m.width = n.width ∧ m.rows.length = n.rows.length ∧
          ∀ procedure : Procedure, (procedure.run m).1 = (procedure.run n).1) ∧
      (∃ clause v, ofFormula f .reject = .error (.inconsistentClause clause v) ∧
        ofFormula (f.rename swap) .reject = .error (.inconsistentClause clause (swap v))) ∧
      (∀ u ∈ f.vars, ∀ v ∈ f.vars, u < v → raise u < raise v) ∧
      ∃ m, ofFormula f .drop = .ok m ∧ ofFormula (f.rename raise) .drop = .ok m := by
  intro f swap raise
  have swapInjective : ∀ u ∈ f.vars, ∀ v ∈ f.vars, swap u = swap v → u = v := by decide
  have raiseInjective : ∀ u ∈ f.vars, ∀ v ∈ f.vars, raise u = raise v → u = v := by decide
  have increasing : ∀ u ∈ f.vars, ∀ v ∈ f.vars, u < v → raise u < raise v := by decide
  have swapDistinct : Set.InjOn swap {v | v ∈ f.vars} := fun u mentioned v otherMentioned =>
    swapInjective u mentioned v otherMentioned
  have raiseDistinct : Set.InjOn raise {v | v ∈ f.vars} := fun u mentioned v otherMentioned =>
    raiseInjective u mentioned v otherMentioned
  have encoded : ofFormula f .drop = .ok ⟨2, [[some .positive, some .negative]], by decide⟩ := rfl
  have failed : ofFormula f .reject = .error (.inconsistentClause 1 (.mk 2)) := rfl
  refine ⟨swapDistinct, raiseDistinct, ?_, ?_, increasing, ?_⟩
  · rcases ofFormula_rename_changes_only_names f swap .drop swapDistinct with
      ⟨m, n, first, second, sameWidth, sameLength, sameVerdict, -⟩ | ⟨clause, v, refused, -⟩
    · exact ⟨m, n, first, second, sameWidth, sameLength, sameVerdict⟩
    · cases encoded.symm.trans refused
  · rcases ofFormula_rename_changes_only_names f swap .reject swapDistinct with
      ⟨m, n, accepted, -⟩ | refused
    · cases failed.symm.trans accepted
    · exact refused
  · rcases ofFormula_rename_changes_only_names f raise .drop raiseDistinct with
      ⟨m, n, first, second, -, -, -, sameMatrix⟩ | ⟨clause, v, refused, -⟩
    · exact ⟨m, first, sameMatrix increasing ▸ second⟩
    · cases encoded.symm.trans refused

end ClauseMatrix

end Clausal
