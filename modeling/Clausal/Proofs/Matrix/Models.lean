/-
# The models of a formula and of its matrix

A valuation gives a sign to each column. The row of a clause is satisfied by
these signs exactly when the clause is true, provided that each variable of the
clause has a column and that no cell has lost a literal to its complement. The
clauses for which the latter fails are tautologies, and they have no row.

So a matrix has the models of the formula that it encodes, whatever columns
there are besides the variables of the formula.
-/

import Clausal.Matrix.Decoding
import Clausal.Proofs.Matrix.Encoding
import Clausal.Proofs.Matrix.Satisfaction

namespace Clausal

namespace Valuation

@[simp]
theorem length_signs (valuation : Valuation) (columns : List Variable) :
    (valuation.signs columns).length = columns.length :=
  List.length_map _

theorem getElem?_signs_eq_some_iff {valuation : Valuation} {columns : List Variable}
    {column : Nat} {sign : Sign} :
    (valuation.signs columns)[column]? = some sign ↔
      ∃ v, columns[column]? = some v ∧ valuation v = sign.toBool := by
  simp only [signs, List.getElem?_map, Option.map_eq_some_iff, Sign.ofBool_eq_iff]

/-- Rows are satisfied by the signs of a valuation through the variables of their
columns. -/
theorem satisfiedBy_signs_iff {row : Row} {columns : List Variable} {valuation : Valuation} :
    row.satisfiedBy (valuation.signs columns) = true ↔
      ∃ (column : Nat) (v : Variable) (sign : Sign),
        columns[column]? = some v ∧ row[column]? = some (some sign) ∧
          valuation v = sign.toBool := by
  rw [Row.satisfiedBy_iff]
  apply Iff.intro
  · intro satisfied
    rcases satisfied with ⟨column, sign, atCell, atSign⟩
    obtain ⟨v, atColumn, holds⟩ := getElem?_signs_eq_some_iff.mp atSign
    exact ⟨column, v, sign, atColumn, atCell, holds⟩
  · intro agreeing
    rcases agreeing with ⟨column, v, sign, atColumn, atCell, holds⟩
    exact ⟨column, sign, atCell, getElem?_signs_eq_some_iff.mpr ⟨v, atColumn, holds⟩⟩

/-- The valuation that gives each column the sign it has in an assignment. -/
def ofSigns (columns : List Variable) (assignment : Assignment) : Valuation :=
  fun v => (assignment[columns.idxOf v]?.map Sign.toBool).getD false

/-- An assignment of all columns is that of a valuation. -/
theorem signs_ofSigns {columns : List Variable} (nodup : columns.Nodup) {assignment : Assignment}
    (complete : assignment.length = columns.length) :
    (ofSigns columns assignment).signs columns = assignment := by
  apply List.ext_getElem
  · rw [length_signs, complete]
  · intro column inSigns inAssignment
    have inColumns : column < columns.length := by simpa using inSigns
    simp [signs, ofSigns, nodup.idxOf_getElem column inColumns, inAssignment]

end Valuation

namespace Clause

/-- The row of a clause is satisfied exactly when the clause is true. -/
theorem satisfiedBy_signs_row {columns : List Variable} {c : Clause}
    (covered : ∀ l ∈ c.literals, l.var ∈ columns) (consistent : c.isTautological = false)
    (valuation : Valuation) :
    (c.row columns).satisfiedBy (valuation.signs columns) = c.eval valuation := by
  rw [Bool.eq_iff_iff, Valuation.satisfiedBy_signs_iff, eval_iff]
  apply Iff.intro
  · intro agreeing
    rcases agreeing with ⟨column, v, sign, atColumn, atCell, holds⟩
    rw [getElem?_row, atColumn, Option.map_some, Option.some_inj] at atCell
    exact ⟨⟨sign, v⟩, mem_of_cell_eq_some atCell, Literal.eval_iff.mpr holds⟩
  · intro someTrue
    rcases someTrue with ⟨l, present, holds⟩
    obtain ⟨column, atColumn⟩ := List.mem_iff_getElem?.mp (covered l present)
    refine ⟨column, l.var, l.sign, atColumn, ?_, Literal.eval_iff.mp holds⟩
    rw [getElem?_row, atColumn, Option.map_some, cell_of_mem consistent present]

end Clause

namespace Formula

/-- The matrix of a formula has the models of the formula: leaving out tautological
clauses and adding columns changes nothing. -/
theorem satisfiedBy_signs_matrix {columns : List Variable} {f : Formula}
    (covered : ∀ c ∈ f.clauses, ∀ l ∈ c.literals, l.var ∈ columns) (valuation : Valuation) :
    (f.matrix columns).satisfiedBy (valuation.signs columns) = f.eval valuation := by
  rw [Bool.eq_iff_iff, ClauseMatrix.satisfiedBy_iff, eval_iff]
  apply Iff.intro
  · intro satisfied c present
    cases tautological : c.isTautological with
    | true => exact Clause.eval_of_isTautological tautological valuation
    | false =>
        rw [← Clause.satisfiedBy_signs_row (covered c present) tautological]
        exact satisfied _ (mem_rows_matrix.mpr ⟨c, present, tautological, rfl⟩)
  · intro holds row inMatrix
    obtain ⟨c, present, consistent, rfl⟩ := mem_rows_matrix.mp inMatrix
    rw [Clause.satisfiedBy_signs_row (covered c present) consistent]
    exact holds c present

end Formula

namespace ClauseMatrix

/-- Every assignment of the columns is that of a valuation, so satisfiability is
kept as well. -/
theorem satisfiable_matrix_iff {columns : List Variable} (nodup : columns.Nodup) {f : Formula}
    (covered : ∀ c ∈ f.clauses, ∀ l ∈ c.literals, l.var ∈ columns) :
    (f.matrix columns).Satisfiable ↔ f.Satisfiable := by
  apply Iff.intro
  · intro satisfiable
    rcases satisfiable with ⟨assignment, complete, satisfied⟩
    refine ⟨Valuation.ofSigns columns assignment, ?_⟩
    rw [← Formula.satisfiedBy_signs_matrix covered, Valuation.signs_ofSigns nodup complete]
    exact satisfied
  · intro satisfiable
    rcases satisfiable with ⟨valuation, holds⟩
    refine ⟨valuation.signs columns, valuation.length_signs columns, ?_⟩
    rw [Formula.satisfiedBy_signs_matrix covered]
    exact holds

/-- An encoded formula is satisfiable exactly when its matrix is. -/
theorem satisfiable_iff_of_encode {columns : List Variable} {f : Formula}
    {policy : TautologyPolicy} {m : ClauseMatrix} (encoded : encode columns f policy = .ok m) :
    m.Satisfiable ↔ f.Satisfiable := by
  obtain ⟨sorted, covered, -, rfl⟩ := encode_eq_ok_iff.mp encoded
  exact satisfiable_matrix_iff (Variable.nodup_of_ascending sorted) covered

/-- Encoding keeps the exact set of models: whenever it succeeds, a valuation of
the columns makes the formula true if and only if it gives each row of the matrix
a cell with the sign of its variable. -/
theorem eval_iff_rows_of_encode {columns : List Variable} {f : Formula}
    {policy : TautologyPolicy} {m : ClauseMatrix} (encoded : encode columns f policy = .ok m)
    (valuation : Valuation) :
    (∀ c ∈ f.clauses, ∃ l ∈ c.literals, valuation l.var = l.sign.toBool) ↔
      ∀ row ∈ m.rows, ∃ (column : Nat) (v : Variable) (sign : Sign),
        columns[column]? = some v ∧ row[column]? = some (some sign) ∧
          valuation v = sign.toBool := by
  obtain ⟨-, covered, -, rfl⟩ := encode_eq_ok_iff.mp encoded
  simp only [← Formula.eval_iff_literals, ← Formula.satisfiedBy_signs_matrix covered,
    satisfiedBy_iff, Valuation.satisfiedBy_signs_iff]

/-- A repeated literal, a tautology that is left out and a column too many. -/
theorem eval_iff_rows_of_encode_wider :
    encode [.mk 4, .mk 9, .mk 12]
        ⟨[⟨[.positive (.mk 9), .negative (.mk 4), .positive (.mk 9)]⟩,
          ⟨[.positive (.mk 4), .negative (.mk 4)]⟩]⟩ .drop =
      .ok ⟨3, [[some .negative, some .positive, none]], by decide⟩ ∧
    ((∀ c ∈ [Clause.mk [.positive (.mk 9), .negative (.mk 4), .positive (.mk 9)],
          ⟨[.positive (.mk 4), .negative (.mk 4)]⟩],
        ∃ l ∈ c.literals, decide (l.var = .mk 4) = l.sign.toBool) ↔
      ∀ row ∈ ([[some .negative, some .positive, none]] : List Row),
        ∃ (column : Nat) (v : Variable) (sign : Sign),
          [Variable.mk 4, .mk 9, .mk 12][column]? = some v ∧ row[column]? = some (some sign) ∧
            decide (v = .mk 4) = sign.toBool) := by
  have encoded : encode [.mk 4, .mk 9, .mk 12]
        ⟨[⟨[.positive (.mk 9), .negative (.mk 4), .positive (.mk 9)]⟩,
          ⟨[.positive (.mk 4), .negative (.mk 4)]⟩]⟩ .drop =
      .ok ⟨3, [[some .negative, some .positive, none]], by decide⟩ := rfl
  exact ⟨encoded, eval_iff_rows_of_encode encoded fun v => decide (v = .mk 4)⟩

end ClauseMatrix

end Clausal
