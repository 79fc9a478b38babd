/-
# Case splitting

Fix the first column both ways, leave out the rows that the choice satisfies,
and go on with what is left. A branch without rows is satisfied whatever the
remaining columns are; a branch that runs out of columns with rows left is not.

The split is a tree, and the whole tree is built: no branch is skipped because
another one succeeded. Its verdict, its size and its leaves are read off it.
-/

import Clausal.Matrix.Basic
import Clausal.Verdict

namespace Clausal

/-- Where a branch ends, after how many choices. -/
inductive Leaf where
  /-- No row is left. -/
  | satisfied (depth : Nat)
  /-- No column is left, but some rows are. -/
  | unsatisfied (depth rows : Nat)
deriving DecidableEq, Repr

def Leaf.isSatisfied : Leaf → Bool
  | satisfied _ => true
  | unsatisfied _ _ => false

/-- The cases of a split. A node fixes the column of its depth. -/
inductive DecisionTree where
  | leaf (outcome : Leaf)
  | branch (ifTrue ifFalse : DecisionTree)
deriving DecidableEq

namespace DecisionTree

/-- Nodes and leaves taken together. -/
def size : DecisionTree → Nat
  | leaf _ => 1
  | branch ifTrue ifFalse => ifTrue.size + ifFalse.size + 1

/-- The leaves, those of the true case first. -/
def leaves : DecisionTree → List Leaf
  | leaf outcome => [outcome]
  | branch ifTrue ifFalse => ifTrue.leaves ++ ifFalse.leaves

/-- Some branch ends satisfied. -/
def satisfiable : DecisionTree → Bool
  | leaf outcome => outcome.isSatisfied
  | branch ifTrue ifFalse => ifTrue.satisfiable || ifFalse.satisfiable

/-- Only the leaves decide. -/
theorem satisfiable_eq_any_leaves (tree : DecisionTree) :
    tree.satisfiable = tree.leaves.any Leaf.isSatisfied := by
  induction tree with
  | leaf outcome => simp [satisfiable, leaves]
  | branch ifTrue ifFalse ihTrue ihFalse => simp [satisfiable, leaves, ihTrue, ihFalse]

/-- A tree has one leaf more than it has inner nodes. -/
theorem size_add_one (tree : DecisionTree) : tree.size + 1 = 2 * tree.leaves.length := by
  induction tree with
  | leaf outcome => rfl
  | branch ifTrue ifFalse ihTrue ihFalse =>
      simp only [size, leaves, List.length_append]
      omega

/-- The tree below a sequence of choices, if no branch ends before. -/
def subtree? : DecisionTree → Assignment → Option DecisionTree
  | tree, [] => some tree
  | leaf _, _ :: _ => none
  | branch ifTrue _, .positive :: path => ifTrue.subtree? path
  | branch _ ifFalse, .negative :: path => ifFalse.subtree? path

end DecisionTree

/-- The rows that fixing a column does not satisfy, in their order. -/
def residual (rows : List Row) (column : Nat) (sign : Sign) : List Row :=
  rows.filter fun row => row[column]? != some (some sign)

/-- The split of the rows on a column and those after it. -/
def splitRows (column : Nat) (rows : List Row) : (remaining : Nat) → DecisionTree
  | 0 =>
      if rows.isEmpty then .leaf (.satisfied column)
      else .leaf (.unsatisfied column rows.length)
  | remaining + 1 =>
      if rows.isEmpty then .leaf (.satisfied column)
      else .branch
        (splitRows (column + 1) (residual rows column .positive) remaining)
        (splitRows (column + 1) (residual rows column .negative) remaining)

/-- The split of a matrix on all of its columns. -/
def ClauseMatrix.split (m : ClauseMatrix) : DecisionTree :=
  splitRows 0 m.rows m.width

/-- A matrix to be decided by case splitting, with the size of the tree that
was last built for it. -/
structure Splitter where
  matrix : ClauseMatrix
  nodes : Nat
deriving DecidableEq

namespace Splitter

/-- No tree has been built yet. -/
def new (m : ClauseMatrix) : Splitter := ⟨m, 0⟩

def solve (splitter : Splitter) : Verdict × Splitter :=
  let tree := splitter.matrix.split
  (Verdict.ofBool tree.satisfiable, { splitter with nodes := tree.size })

end Splitter

end Clausal
