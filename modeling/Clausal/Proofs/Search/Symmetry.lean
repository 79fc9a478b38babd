/-
# Exchanged signs

To exchange the two signs in a column is to call each value of its variable by the name of
the other. The case split of the matrix with exchanged signs is then the same tree, with the
two cases of each such column in each other's place: what a sign leaves open in one matrix,
the opposite sign leaves open in the other. The branches end as they did, in another order,
and neither the number of nodes nor the verdict depends on that order.

Backtracking tries one sign before the other, and so only its verdict is the same. The number
of its checks is not.
-/

import Clausal.Proofs.Search.Agreement
import Mathlib.Data.Finset.Insert

namespace Clausal

/-- The sign that stands for a sign in a column, if those of the given columns are exchanged. -/
def Sign.exchange (columns : Finset Nat) (column : Nat) (sign : Sign) : Sign :=
  if column ∈ columns then sign.opposite else sign

@[simp]
theorem Sign.exchange_exchange (columns : Finset Nat) (column : Nat) (sign : Sign) :
    (sign.exchange columns column).exchange columns column = sign := by
  by_cases inside : column ∈ columns <;> simp [exchange, inside]

theorem Sign.exchange_eq_iff {columns : Finset Nat} {column : Nat} {first second : Sign} :
    first.exchange columns column = second ↔ first = second.exchange columns column := by
  apply Iff.intro
  · rintro rfl
    rw [exchange_exchange]
  · rintro rfl
    rw [exchange_exchange]

/-- The row with the signs of the given columns exchanged. Absent cells stay absent. -/
def Row.exchange (columns : Finset Nat) (row : Row) : Row :=
  row.mapIdx fun column cell => cell.map (Sign.exchange columns column)

theorem Row.getElem?_exchange_eq_some_iff {columns : Finset Nat} {row : Row} {column : Nat}
    {sign : Sign} :
    (row.exchange columns)[column]? = some (some sign) ↔
      row[column]? = some (some (sign.exchange columns column)) := by
  simp only [exchange, List.getElem?_mapIdx, Option.map_eq_some_iff, Sign.exchange_eq_iff,
    exists_eq_right]

/-- The matrix with the signs of the given columns exchanged in every row. -/
def ClauseMatrix.exchange (columns : Finset Nat) (m : ClauseMatrix) : ClauseMatrix where
  width := m.width
  rows := m.rows.map (Row.exchange columns)
  length_row := by
    intro row present
    obtain ⟨original, inMatrix, rfl⟩ := List.mem_map.mp present
    exact List.length_mapIdx.trans (m.length_row original inMatrix)

namespace DecisionTree

/-- The tree with the two cases of the given columns in each other's place. The root of the
tree fixes the column of the given number. -/
def exchange (columns : Finset Nat) : (column : Nat) → DecisionTree → DecisionTree
  | _, leaf outcome => leaf outcome
  | column, branch ifTrue ifFalse =>
      if column ∈ columns then
        branch (ifFalse.exchange columns (column + 1)) (ifTrue.exchange columns (column + 1))
      else branch (ifTrue.exchange columns (column + 1)) (ifFalse.exchange columns (column + 1))

variable (columns : Finset Nat) (column : Nat) (tree : DecisionTree)

/-- The branches end as before, in another order. -/
theorem leaves_exchange_perm : (tree.exchange columns column).leaves.Perm tree.leaves := by
  induction tree generalizing column with
  | leaf outcome => exact List.Perm.refl _
  | branch ifTrue ifFalse ihTrue ihFalse =>
      have underTrue := ihTrue (column + 1)
      have underFalse := ihFalse (column + 1)
      by_cases inside : column ∈ columns
      · simp only [exchange, inside, if_true, leaves]
        exact (underFalse.append underTrue).trans List.perm_append_comm
      · simp only [exchange, inside, if_false, leaves]
        exact underTrue.append underFalse

theorem size_exchange : (tree.exchange columns column).size = tree.size := by
  have counted := tree.size_add_one
  have countedExchanged := (tree.exchange columns column).size_add_one
  rw [(leaves_exchange_perm columns column tree).length_eq] at countedExchanged
  omega

theorem satisfiable_exchange :
    (tree.exchange columns column).satisfiable = tree.satisfiable := by
  rw [satisfiable_eq_any_leaves, satisfiable_eq_any_leaves]
  exact (leaves_exchange_perm columns column tree).any_eq

end DecisionTree

section splitRows

variable (columns : Finset Nat) (column : Nat) (rows : List Row)

/-- A sign leaves open, with its own signs exchanged, what the sign that stands for it leaves
open in the rows as they were. -/
theorem residual_map_exchange (sign : Sign) :
    residual (rows.map (Row.exchange columns)) column sign =
      (residual rows column (sign.exchange columns column)).map (Row.exchange columns) := by
  rw [residual, residual, List.filter_map]
  congr 2
  funext row
  rw [Bool.eq_iff_iff]
  simp only [Function.comp_apply, bne_iff_ne, ne_eq, Row.getElem?_exchange_eq_some_iff]

/-- The split of the rows with exchanged signs is the split of the rows with exchanged cases. -/
theorem splitRows_map_exchange (remaining : Nat) :
    splitRows column (rows.map (Row.exchange columns)) remaining =
      (splitRows column rows remaining).exchange columns column := by
  induction remaining generalizing column rows with
  | zero =>
      by_cases done : rows = []
      · rw [done, List.map_nil, splitRows_nil, DecisionTree.exchange]
      · have left : rows.map (Row.exchange columns) ≠ [] := by simpa using done
        rw [splitRows_zero_of_ne_nil done, splitRows_zero_of_ne_nil left, List.length_map,
          DecisionTree.exchange]
  | succ remaining ih =>
      by_cases done : rows = []
      · rw [done, List.map_nil, splitRows_nil, DecisionTree.exchange]
      · have left : rows.map (Row.exchange columns) ≠ [] := by simpa using done
        rw [splitRows_succ_of_ne_nil done, splitRows_succ_of_ne_nil left,
          residual_map_exchange, residual_map_exchange, ih, ih, DecisionTree.exchange]
        -- In a column of exchanged signs the true case has the rows of the false case.
        by_cases inside : column ∈ columns
        · simp only [Sign.exchange, Sign.opposite, inside, if_true]
        · simp only [Sign.exchange, inside, if_false]

end splitRows

namespace ClauseMatrix

theorem split_exchange (columns : Finset Nat) (m : ClauseMatrix) :
    (m.exchange columns).split = m.split.exchange columns 0 :=
  splitRows_map_exchange columns 0 m.rows m.width

/-- A matrix whose two signs are exchanged in any set of its columns gets the same verdict
from both searches, and its case split has exactly as many nodes. -/
theorem exchanged_signs_same_verdict_and_nodes (m : ClauseMatrix) (columns : Finset Nat) :
    (Splitter.new (m.exchange columns)).solve.1 = (Splitter.new m).solve.1 ∧
      (Backtracker.new (m.exchange columns)).solve.1 = (Backtracker.new m).solve.1 ∧
      (Splitter.new (m.exchange columns)).solve.2.nodes = (Splitter.new m).solve.2.nodes := by
  have bySplitting : (Procedure.splitting.run (m.exchange columns)).1 =
      (Procedure.splitting.run m).1 := by
    show Verdict.ofBool (m.exchange columns).split.satisfiable = Verdict.ofBool m.split.satisfiable
    rw [split_exchange, DecisionTree.satisfiable_exchange]
  refine ⟨bySplitting, ?_, ?_⟩
  · calc
      (Procedure.backtracking.run (m.exchange columns)).1 =
          (Procedure.splitting.run (m.exchange columns)).1 := Procedure.run_fst_eq _ _ _
      _ = (Procedure.splitting.run m).1 := bySplitting
      _ = (Procedure.backtracking.run m).1 := Procedure.run_fst_eq _ _ _
  · show (m.exchange columns).split.size = m.split.size
    rw [split_exchange, DecisionTree.size_exchange]

/-- A row over one column is satisfied by the first sign that is tried, or by the second. -/
example :
    let m : ClauseMatrix := ⟨1, [[some .negative]], by decide⟩
    (Backtracker.new m).solve.2.assignments = 1 ∧
      (Backtracker.new (m.exchange {0})).solve.2.assignments = 2 := by
  decide

end ClauseMatrix

end Clausal
