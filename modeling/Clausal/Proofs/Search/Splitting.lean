/-
# What a branch of a case split decides

The node that a path of choices leads to holds the rows that these choices leave
unsatisfied, and no others: leaving out rows column by column amounts to one
test against the whole path. From this the verdict of every branch follows, and
with the empty path the verdict on the matrix.
-/

import Clausal.Proofs.Matrix.Satisfaction
import Clausal.Search.Splitting

namespace Clausal

/-- The first sign of an assignment is one of two. -/
theorem Assignment.exists_length_succ {length : Nat} {holds : Assignment → Prop} :
    (∃ rest : Assignment, rest.length = length + 1 ∧ holds rest) ↔
      (∃ rest : Assignment, rest.length = length ∧ holds (.positive :: rest)) ∨
        ∃ rest : Assignment, rest.length = length ∧ holds (.negative :: rest) := by
  apply Iff.intro
  · intro found
    rcases found with ⟨rest, long, held⟩
    cases rest with
    | nil => simp at long
    | cons sign rest =>
        have tailLength : rest.length = length := by simpa using long
        cases sign with
        | positive => exact Or.inl ⟨rest, tailLength, held⟩
        | negative => exact Or.inr ⟨rest, tailLength, held⟩
  · intro found
    rcases found with ⟨rest, tailLength, held⟩ | ⟨rest, tailLength, held⟩
    · exact ⟨.positive :: rest, by simp [tailLength], held⟩
    · exact ⟨.negative :: rest, by simp [tailLength], held⟩

/-- The rows that the choices of a path leave unsatisfied. -/
def openRows (rows : List Row) (path : Assignment) : List Row :=
  rows.filter fun row => !row.satisfiedBy path

@[simp]
theorem openRows_nil (rows : List Row) : openRows rows [] = rows := by
  simp [openRows]

theorem openRows_eq_nil_iff {rows : List Row} {path : Assignment} :
    openRows rows path = [] ↔ ∀ row ∈ rows, row.satisfiedBy path = true := by
  simp [openRows, List.filter_eq_nil_iff]

/-- Fixing one more column leaves open what the longer path leaves open. -/
theorem residual_openRows (rows : List Row) (path : Assignment) (sign : Sign) :
    residual (openRows rows path) path.length sign = openRows rows (path ++ [sign]) := by
  simp only [residual, openRows, List.filter_filter]
  apply congrArg fun keep => rows.filter keep
  funext row
  rw [Row.satisfiedBy_append_singleton, Bool.not_or, Bool.and_comm]
  rfl

@[simp]
theorem splitRows_nil (column remaining : Nat) :
    splitRows column [] remaining = .leaf (.satisfied column) := by
  cases remaining <;> simp [splitRows]

theorem splitRows_zero_of_ne_nil {rows : List Row} (left : rows ≠ []) (column : Nat) :
    splitRows column rows 0 = .leaf (.unsatisfied column rows.length) := by
  simp [splitRows, left]

theorem splitRows_succ_of_ne_nil {rows : List Row} (left : rows ≠ []) (column remaining : Nat) :
    splitRows column rows (remaining + 1) =
      .branch (splitRows (column + 1) (residual rows column .positive) remaining)
        (splitRows (column + 1) (residual rows column .negative) remaining) := by
  simp [splitRows, left]

/-- A node with open rows goes on to the two paths that are one choice longer. -/
theorem splitRows_openRows_succ {rows : List Row} {path : Assignment}
    (left : openRows rows path ≠ []) (remaining : Nat) :
    splitRows path.length (openRows rows path) (remaining + 1) =
      .branch
        (splitRows (path ++ [Sign.positive]).length
          (openRows rows (path ++ [Sign.positive])) remaining)
        (splitRows (path ++ [Sign.negative]).length
          (openRows rows (path ++ [Sign.negative])) remaining) := by
  rw [splitRows_succ_of_ne_nil left, residual_openRows, residual_openRows,
    List.length_append, List.length_append]
  rfl

/-- A path that leaves nothing open is completed by any signs. -/
theorem exists_rest_of_openRows_eq_nil {rows : List Row} {path : Assignment}
    (done : openRows rows path = []) (remaining : Nat) :
    ∃ rest : Assignment, rest.length = remaining ∧
      ∀ row ∈ rows, row.satisfiedBy (path ++ rest) = true := by
  refine ⟨List.replicate remaining .negative, List.length_replicate, fun row present => ?_⟩
  exact Row.satisfiedBy_append (openRows_eq_nil_iff.mp done row present) _

/-- The tree below a path is satisfiable when the path can be completed to an
assignment that satisfies all rows, those already left out included. -/
theorem satisfiable_splitRows_iff (rows : List Row) (path : Assignment) (remaining : Nat) :
    (splitRows path.length (openRows rows path) remaining).satisfiable = true ↔
      ∃ rest : Assignment, rest.length = remaining ∧
        ∀ row ∈ rows, row.satisfiedBy (path ++ rest) = true := by
  induction remaining generalizing path with
  | zero =>
      by_cases done : openRows rows path = []
      · simpa [done, DecisionTree.satisfiable, Leaf.isSatisfied] using
          exists_rest_of_openRows_eq_nil done 0
      · rw [splitRows_zero_of_ne_nil done]
        simp only [DecisionTree.satisfiable, Leaf.isSatisfied, Bool.false_eq_true, false_iff]
        intro completed
        rcases completed with ⟨rest, short, satisfied⟩
        obtain rfl := List.length_eq_zero_iff.mp short
        exact done (openRows_eq_nil_iff.mpr (by simpa using satisfied))
  | succ remaining ih =>
      by_cases done : openRows rows path = []
      · simpa [done, DecisionTree.satisfiable, Leaf.isSatisfied] using
          exists_rest_of_openRows_eq_nil done (remaining + 1)
      · rw [splitRows_openRows_succ done, Assignment.exists_length_succ]
        simp only [DecisionTree.satisfiable, Bool.or_eq_true, ih, List.append_assoc,
          List.singleton_append]

namespace ClauseMatrix

/-- The split of a matrix finds out whether it is satisfiable. -/
theorem split_satisfiable_iff {m : ClauseMatrix} :
    m.split.satisfiable = true ↔ m.Satisfiable := by
  have root : (splitRows 0 (openRows m.rows []) m.width).satisfiable = true ↔
      ∃ rest : Assignment, rest.length = m.width ∧
        ∀ row ∈ m.rows, row.satisfiedBy ([] ++ rest) = true :=
    satisfiable_splitRows_iff m.rows [] m.width
  simpa only [openRows_nil, List.nil_append, split, Satisfiable, satisfiedBy_iff] using root

end ClauseMatrix

/-- The verdict of a splitter is that on its matrix, whatever it did before. -/
theorem Splitter.solve_eq_satisfiable_iff {splitter : Splitter} :
    splitter.solve.1 = .satisfiable ↔ splitter.matrix.Satisfiable := by
  simp [solve, ClauseMatrix.split_satisfiable_iff]

end Clausal
