/-
# Weaker rows

A row that has all the signs of another row, and perhaps more, is satisfied wherever the
other is. A matrix all of whose rows are weaker in this sense than some row of another
matrix has at least the models of the other, and neither search works harder on it: a
branch of the case split has rows left only if the branch of the other matrix has, and the
first assignment that passes comes no later.

Rows are related to rows and not places to places. So their order, their repetition and rows
that are weaker than others make no difference to either search.
-/

import Clausal.Proofs.Search.Agreement
import Clausal.Proofs.Search.Work

namespace Clausal

/-- Each sign of the other row stands in this row as well. -/
def Row.Extends (row other : Row) : Prop :=
  ∀ (column : Nat) (sign : Sign),
    other[column]? = some (some sign) → row[column]? = some (some sign)

namespace Row

variable {row other : Row}

theorem Extends.refl (row : Row) : row.Extends row :=
  fun _ _ atCell => atCell

/-- It suffices to compare the cells of the other row. -/
theorem extends_iff_cells :
    row.Extends other ↔
      ∀ column : Fin other.length,
        other[column] ≠ none → row[column.val]? = some other[column] := by
  apply Iff.intro
  · intro extended column occupied
    obtain ⟨sign, atCell⟩ := Option.ne_none_iff_exists'.mp occupied
    rw [atCell]
    exact extended column sign (atCell ▸ List.getElem?_eq_getElem column.isLt)
  · intro sameCells column sign atCell
    obtain ⟨inside, cellIs⟩ := List.getElem?_eq_some_iff.mp atCell
    have sameCell := sameCells ⟨column, inside⟩ (by simp [cellIs])
    simpa [cellIs] using sameCell

instance (row other : Row) : Decidable (row.Extends other) :=
  decidable_of_iff' _ extends_iff_cells

/-- What satisfies a row satisfies every row that extends it. -/
theorem Extends.satisfiedBy (extended : row.Extends other) {assignment : Assignment}
    (satisfied : other.satisfiedBy assignment = true) : row.satisfiedBy assignment = true := by
  obtain ⟨column, sign, atCell, atSign⟩ := satisfiedBy_iff.mp satisfied
  exact satisfiedBy_iff.mpr ⟨column, sign, extended column sign atCell, atSign⟩

end Row

/-- Every row extends a row of the other list. -/
def Weakens (rows others : List Row) : Prop :=
  ∀ row ∈ rows, ∃ other ∈ others, row.Extends other

instance (rows others : List Row) : Decidable (Weakens rows others) :=
  inferInstanceAs (Decidable (∀ row ∈ rows, ∃ other ∈ others, row.Extends other))

namespace Weakens

variable {rows others : List Row}

/-- A row extends itself, so fewer rows are weaker than more. -/
theorem of_subset (present : rows ⊆ others) : Weakens rows others :=
  fun row inRows => ⟨row, present inRows, Row.Extends.refl row⟩

theorem eq_nil (weaker : Weakens rows []) : rows = [] := by
  apply List.eq_nil_iff_forall_not_mem.mpr
  intro row present
  obtain ⟨other, inOthers, -⟩ := weaker row present
  exact List.not_mem_nil inOthers

/-- A choice that satisfies the other row satisfies the row that extends it, so what a choice
leaves open stays weaker. -/
theorem residual_residual (weaker : Weakens rows others) (column : Nat) (sign : Sign) :
    Weakens (residual rows column sign) (residual others column sign) := by
  intro row leftOpen
  obtain ⟨present, missed⟩ := List.mem_filter.mp leftOpen
  obtain ⟨other, inOthers, extended⟩ := weaker row present
  refine ⟨other, List.mem_filter.mpr ⟨inOthers, ?_⟩, extended⟩
  rw [bne_iff_ne] at missed ⊢
  exact fun atCell => missed (extended column sign atCell)

/-- The split of weaker rows ends each branch no later. -/
theorem size_splitRows_le (weaker : Weakens rows others) (column remaining : Nat) :
    (splitRows column rows remaining).size ≤ (splitRows column others remaining).size := by
  induction remaining generalizing column rows others with
  | zero =>
      have leafAlone := (size_splitRows_eq_one_iff column rows 0).mpr (Or.inl rfl)
      rw [leafAlone]
      exact (splitRows column others 0).odd_size.pos
  | succ remaining ih =>
      by_cases done : rows = []
      · rw [done, splitRows_nil]
        exact (splitRows column others (remaining + 1)).odd_size.pos
      · have othersLeft : others ≠ [] := by
          rintro rfl
          exact done weaker.eq_nil
        -- Each case has weaker rows than the same case of the other rows.
        have whenTrue := ih (weaker.residual_residual column .positive) (column + 1)
        have whenFalse := ih (weaker.residual_residual column .negative) (column + 1)
        rw [splitRows_succ_of_ne_nil done, splitRows_succ_of_ne_nil othersLeft,
          DecisionTree.size, DecisionTree.size]
        omega

end Weakens

/-- An assignment that passes earlier is found with fewer checks. -/
theorem Trail.tried_le_tried {m other : ClauseMatrix} {candidates : List Assignment}
    (passes : ∀ assignment ∈ candidates,
      other.satisfiedBy assignment = true → m.satisfiedBy assignment = true) :
    tried m candidates ≤ tried other candidates := by
  have earlier : candidates.findIdx m.satisfiedBy ≤ candidates.findIdx other.satisfiedBy :=
    List.findIdx_le_findIdx passes
  rw [tried, tried]
  omega

namespace ClauseMatrix

variable {m other : ClauseMatrix}

theorem satisfiedBy_of_weakens (weaker : Weakens m.rows other.rows) {assignment : Assignment}
    (satisfied : other.satisfiedBy assignment = true) : m.satisfiedBy assignment = true := by
  rw [satisfiedBy_iff] at satisfied ⊢
  intro row present
  obtain ⟨stronger, inOther, extended⟩ := weaker row present
  exact extended.satisfiedBy (satisfied stronger inOther)

theorem satisfiable_of_weakens (sameWidth : m.width = other.width)
    (weaker : Weakens m.rows other.rows) (satisfiable : other.Satisfiable) : m.Satisfiable := by
  rcases satisfiable with ⟨assignment, complete, satisfied⟩
  exact ⟨assignment, complete.trans sameWidth.symm, satisfiedBy_of_weakens weaker satisfied⟩

/-- Neither search works harder on weaker rows. -/
theorem work_le_of_weakens (sameWidth : m.width = other.width)
    (weaker : Weakens m.rows other.rows) (procedure : Procedure) :
    (procedure.run m).2 ≤ (procedure.run other).2 := by
  cases procedure with
  | splitting =>
      show (splitRows 0 m.rows m.width).size ≤ (splitRows 0 other.rows other.width).size
      rw [sameWidth]
      exact weaker.size_splitRows_le 0 other.width
  | backtracking =>
      show (Backtracker.new m).solve.2.assignments ≤ (Backtracker.new other).solve.2.assignments
      rw [Backtracker.assignments_solve_new_eq_tried, Backtracker.assignments_solve_new_eq_tried,
        sameWidth]
      exact Trail.tried_le_tried fun _ _ => satisfiedBy_of_weakens weaker

/-- Matrices whose rows are weaker than each other's are alike to both searches. -/
theorem run_eq_of_weakens (sameWidth : m.width = other.width) (weaker : Weakens m.rows other.rows)
    (stronger : Weakens other.rows m.rows) (procedure : Procedure) :
    procedure.run m = procedure.run other := by
  have sameAnswer : m.Satisfiable ↔ other.Satisfiable :=
    ⟨satisfiable_of_weakens sameWidth.symm stronger, satisfiable_of_weakens sameWidth weaker⟩
  apply Prod.ext
  · exact Verdict.eq_of_satisfiable_iff procedure.run_eq_satisfiable_iff
      (procedure.run_eq_satisfiable_iff.trans sameAnswer.symm)
  · exact Nat.le_antisymm (work_le_of_weakens sameWidth weaker procedure)
      (work_le_of_weakens sameWidth.symm stronger procedure)

/-- If every row of a matrix has all the signs of some row of another matrix with as many
columns, then the matrix is satisfiable whenever the other is, its case split has at most as
many nodes, and its search checks at most as many assignments. Two matrices that stand in
this relation both ways get the same verdict for the same work from either search. This is so
for a matrix and the same rows in another order, repeated, or with rows added that are weaker
than others. -/
theorem weaker_rows_need_no_more_work (m other : ClauseMatrix) (sameWidth : m.width = other.width)
    (weaker : Weakens m.rows other.rows) :
    (other.Satisfiable → m.Satisfiable) ∧
      (Splitter.new m).solve.2.nodes ≤ (Splitter.new other).solve.2.nodes ∧
      (Backtracker.new m).solve.2.assignments ≤ (Backtracker.new other).solve.2.assignments ∧
      (Weakens other.rows m.rows → ∀ procedure : Procedure,
        procedure.run m = procedure.run other) ∧
      (other.rows ⊆ m.rows → ∀ procedure : Procedure, procedure.run m = procedure.run other) := by
  refine ⟨satisfiable_of_weakens sameWidth weaker, work_le_of_weakens sameWidth weaker .splitting,
    work_le_of_weakens sameWidth weaker .backtracking, run_eq_of_weakens sameWidth weaker, ?_⟩
  intro present
  exact run_eq_of_weakens sameWidth weaker (Weakens.of_subset present)

/-- A longer row in place of two rows makes less work. The two rows in the other order, one of
them twice and the longer row between them, make as much work as the two, and so they do with
another row added that is weaker than the first. -/
theorem weaker_rows_need_no_more_work_longer_rows :
    let two : ClauseMatrix := ⟨2, [[some .positive, none], [none, some .negative]], by decide⟩
    let longer : ClauseMatrix := ⟨2, [[some .positive, some .positive]], by decide⟩
    let mixed : ClauseMatrix :=
      ⟨2, [[none, some .negative], [some .positive, some .positive], [some .positive, none],
        [none, some .negative]], by decide⟩
    let other : ClauseMatrix :=
      ⟨2, [[some .positive, none], [some .positive, some .negative], [none, some .negative]],
        by decide⟩
    (Weakens longer.rows two.rows ∧ two.Satisfiable ∧ longer.Satisfiable ∧
        (Splitter.new longer).solve.2.nodes ≤ (Splitter.new two).solve.2.nodes ∧
        (Backtracker.new longer).solve.2.assignments ≤
          (Backtracker.new two).solve.2.assignments) ∧
      (Weakens mixed.rows two.rows ∧ two.rows ⊆ mixed.rows ∧
        ∀ procedure : Procedure, procedure.run mixed = procedure.run two) ∧
      (Weakens mixed.rows other.rows ∧ Weakens other.rows mixed.rows ∧
        ∀ procedure : Procedure, procedure.run mixed = procedure.run other) := by
  intro two longer mixed other
  have longerWeaker : Weakens longer.rows two.rows := by decide
  have mixedWeaker : Weakens mixed.rows two.rows := by decide
  have twoPresent : two.rows ⊆ mixed.rows := by decide
  have mixedWeakerThanOther : Weakens mixed.rows other.rows := by decide
  have otherWeakerThanMixed : Weakens other.rows mixed.rows := by decide
  have model : two.Satisfiable := ⟨[.positive, .negative], rfl, rfl⟩
  obtain ⟨kept, fewerNodes, fewerChecks, -⟩ :=
    weaker_rows_need_no_more_work longer two rfl longerWeaker
  obtain ⟨-, -, -, -, ofPresent⟩ := weaker_rows_need_no_more_work mixed two rfl mixedWeaker
  obtain ⟨-, -, -, bothWays, -⟩ :=
    weaker_rows_need_no_more_work mixed other rfl mixedWeakerThanOther
  exact ⟨⟨longerWeaker, model, kept model, fewerNodes, fewerChecks⟩,
    ⟨mixedWeaker, twoPresent, ofPresent twoPresent⟩,
    ⟨mixedWeakerThanOther, otherWeakerThanMixed, bothWays otherWeakerThanMixed⟩⟩

end ClauseMatrix

end Clausal
