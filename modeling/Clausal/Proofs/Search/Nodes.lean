/-
# The nodes of a case split

A node is told by the choices that lead to it. The split goes on below a node as
long as some row is open there and some column is left. So the nodes are the
sequences of signs, at most one for each column, of which every proper beginning
leaves a row open. Counting these sequences counts the nodes, and it bounds them:
the tree is complete if nothing can be satisfied, and only then can it be as large
as the number of columns allows.
-/

import Clausal.Proofs.Search.Splitting
import Mathlib.Algebra.Group.Nat.Even
import Mathlib.Data.Set.Card

namespace Clausal

namespace DecisionTree

/-- The choices that lead to each node, the root first. -/
def paths : DecisionTree → List Assignment
  | leaf _ => [[]]
  | branch ifTrue ifFalse =>
      [] :: (ifTrue.paths.map (List.cons .positive) ++ ifFalse.paths.map (List.cons .negative))

theorem length_paths (tree : DecisionTree) : tree.paths.length = tree.size := by
  induction tree with
  | leaf outcome => rfl
  | branch ifTrue ifFalse ihTrue ihFalse =>
      simp only [paths, size, List.length_cons, List.length_append, List.length_map, ihTrue,
        ihFalse]

theorem mem_paths_iff {tree : DecisionTree} {path : Assignment} :
    path ∈ tree.paths ↔ (tree.subtree? path).isSome = true := by
  induction tree generalizing path with
  | leaf outcome => cases path <;> simp [paths, subtree?]
  | branch ifTrue ifFalse ihTrue ihFalse =>
      cases path with
      | nil => simp [paths, subtree?]
      | cons sign path => cases sign <;> simp [paths, subtree?, ihTrue, ihFalse]

/-- Different nodes are reached by different choices. -/
theorem nodup_paths (tree : DecisionTree) : tree.paths.Nodup := by
  induction tree with
  | leaf outcome => exact List.nodup_singleton _
  | branch ifTrue ifFalse ihTrue ihFalse =>
      have apart : List.Disjoint (ifTrue.paths.map (List.cons .positive))
          (ifFalse.paths.map (List.cons .negative)) := by
        intro path inTrue inFalse
        obtain ⟨positiveRest, -, rfl⟩ := List.mem_map.mp inTrue
        obtain ⟨negativeRest, -, same⟩ := List.mem_map.mp inFalse
        cases same
      refine List.nodup_cons.mpr ⟨by simp, ?_⟩
      exact List.Nodup.append (ihTrue.map List.cons_injective) (ihFalse.map List.cons_injective)
        apart

/-- The size of a tree is the number of sequences of choices that lead to a node. -/
theorem ncard_subtrees (tree : DecisionTree) :
    Set.ncard {path : Assignment | (tree.subtree? path).isSome = true} = tree.size := by
  have listed : {path : Assignment | (tree.subtree? path).isSome = true} =
      tree.paths.toFinset := by
    ext path
    simp [mem_paths_iff]
  rw [listed, Set.ncard_coe_finset, List.toFinset_card_of_nodup tree.nodup_paths, length_paths]

theorem odd_size (tree : DecisionTree) : Odd tree.size := by
  have counted := tree.size_add_one
  rw [Nat.odd_iff]
  omega

end DecisionTree

/-- The node that some more choices lead to, and when there is one: not more choices
than columns are left, and some row is open before each of them. -/
theorem subtree?_splitRows_eq_some_iff (rows : List Row) (path rest : Assignment)
    (remaining : Nat) {tree : DecisionTree} :
    (splitRows path.length (openRows rows path) remaining).subtree? rest = some tree ↔
      (rest.length ≤ remaining ∧ ∀ n < rest.length, openRows rows (path ++ rest.take n) ≠ []) ∧
        splitRows (path ++ rest).length (openRows rows (path ++ rest))
          (remaining - rest.length) = tree := by
  induction rest generalizing path remaining with
  | nil => simp [DecisionTree.subtree?]
  | cons sign rest ih =>
      by_cases done : openRows rows path = []
      · have noneOpen : ¬ ∀ n < (sign :: rest).length,
            openRows rows (path ++ (sign :: rest).take n) ≠ [] := by
          intro allOpen
          exact allOpen 0 (Nat.zero_lt_succ _) (by simpa using done)
        simp only [done, splitRows_nil, DecisionTree.subtree?, noneOpen, and_false, false_and,
          reduceCtorEq]
      · cases remaining with
        | zero => simp [splitRows_zero_of_ne_nil done, DecisionTree.subtree?]
        | succ remaining =>
            -- The first choice moves to the path already taken, and with it its open rows.
            have below := ih (path ++ [sign]) remaining
            have openBefore : (∀ n < rest.length + 1,
                openRows rows (path ++ (sign :: rest).take n) ≠ []) ↔
                ∀ n < rest.length, openRows rows (path ++ [sign] ++ rest.take n) ≠ [] := by
              rw [Nat.forall_lt_succ_left]
              simp [done]
            rw [List.append_assoc, List.singleton_append] at below
            rw [splitRows_openRows_succ done, List.length_cons, Nat.add_le_add_iff_right,
              Nat.add_sub_add_right, openBefore, ← below]
            cases sign <;> rfl

section size

variable (column : Nat) (rows : List Row) (remaining : Nat)

/-- A split on a number of columns is at most a complete tree of that depth. -/
theorem size_splitRows_lt : (splitRows column rows remaining).size < 2 ^ (remaining + 1) := by
  induction remaining generalizing column rows with
  | zero =>
      by_cases done : rows = []
      · simp [done, DecisionTree.size]
      · simp [splitRows_zero_of_ne_nil done, DecisionTree.size]
  | succ remaining ih =>
      by_cases done : rows = []
      · simp [done, DecisionTree.size]
      · have whenTrue := ih (column + 1) (residual rows column .positive)
        have whenFalse := ih (column + 1) (residual rows column .negative)
        rw [splitRows_succ_of_ne_nil done, DecisionTree.size, Nat.pow_succ]
        omega

/-- A split without a satisfied leaf is the complete tree. -/
theorem size_splitRows_of_not_satisfiable
    (unsatisfiable : (splitRows column rows remaining).satisfiable = false) :
    (splitRows column rows remaining).size + 1 = 2 ^ (remaining + 1) := by
  induction remaining generalizing column rows with
  | zero =>
      by_cases done : rows = []
      · simp [done, DecisionTree.satisfiable, Leaf.isSatisfied] at unsatisfiable
      · simp [splitRows_zero_of_ne_nil done, DecisionTree.size]
  | succ remaining ih =>
      by_cases done : rows = []
      · simp [done, DecisionTree.satisfiable, Leaf.isSatisfied] at unsatisfiable
      · rw [splitRows_succ_of_ne_nil done, DecisionTree.satisfiable, Bool.or_eq_false_iff]
          at unsatisfiable
        have whenTrue := ih _ _ unsatisfiable.1
        have whenFalse := ih _ _ unsatisfiable.2
        rw [splitRows_succ_of_ne_nil done, DecisionTree.size, Nat.pow_succ]
        omega

theorem size_splitRows_eq_one_iff :
    (splitRows column rows remaining).size = 1 ↔ remaining = 0 ∨ rows = [] := by
  by_cases done : rows = []
  · simp [done, DecisionTree.size]
  · cases remaining with
    | zero => simp [splitRows_zero_of_ne_nil done, DecisionTree.size]
    | succ remaining =>
        have positive := (splitRows (column + 1) (residual rows column .positive)
          remaining).odd_size.pos
        rw [splitRows_succ_of_ne_nil done, DecisionTree.size]
        simp only [done, or_false]
        omega

end size

namespace ClauseMatrix

/-- The nodes of a split are the sequences of signs of which no proper beginning
satisfies all rows. -/
theorem isSome_subtree?_split_iff {m : ClauseMatrix} {path : Assignment} :
    (m.split.subtree? path).isSome = true ↔
      path.length ≤ m.width ∧ ∀ n < path.length, m.satisfiedBy (path.take n) = false := by
  have root {tree : DecisionTree} :=
    @subtree?_splitRows_eq_some_iff m.rows [] path m.width tree
  have openIff (n : Nat) : openRows m.rows (path.take n) ≠ [] ↔
      m.satisfiedBy (path.take n) = false := by
    rw [Ne, openRows_eq_nil_iff, ← satisfiedBy_iff, Bool.not_eq_true]
  simp only [openRows_nil, List.nil_append, List.length_nil, openIff] at root
  rw [split, Option.isSome_iff_exists]
  simp only [root, exists_and_left, exists_eq', and_true]

/-- The split of a matrix without a model is the complete tree. -/
theorem size_split_of_not_satisfiable {m : ClauseMatrix} (unsatisfiable : ¬ m.Satisfiable) :
    m.split.size + 1 = 2 ^ (m.width + 1) := by
  apply size_splitRows_of_not_satisfiable
  change m.split.satisfiable = false
  rwa [← Bool.not_eq_true, split_satisfiable_iff]

end ClauseMatrix

/-- A split has one node for each sequence of signs, at most one for each column, of
which no proper beginning satisfies all rows. So the number of nodes is odd, it lies
between one and the size of the complete tree, it is one only where there is nothing
to split, and without a model the tree is complete. With up to 63 columns the number
fits in 64 bits. -/
theorem Splitter.nodes_solve_eq_ncard_undecided (splitter : Splitter) :
    let m := splitter.matrix
    let nodes := splitter.solve.2.nodes
    nodes = Set.ncard {path : Assignment | path.length ≤ m.width ∧
        ∀ n < path.length, ¬ ∀ row ∈ m.rows, ∃ (column : Nat) (sign : Sign),
          row[column]? = some (some sign) ∧ (path.take n)[column]? = some sign} ∧
      Odd nodes ∧ 1 ≤ nodes ∧ nodes ≤ 2 ^ (m.width + 1) - 1 ∧
      (m.width ≤ 63 → nodes < UInt64.size) ∧
      (nodes = 1 ↔ m.width = 0 ∨ m.rows = []) ∧
      (¬ m.Satisfiable → nodes = 2 ^ (m.width + 1) - 1) := by
  intro m nodes
  have counted : nodes = m.split.size := rfl
  have below : m.split.size < 2 ^ (m.width + 1) := size_splitRows_lt 0 m.rows m.width
  have odd := m.split.odd_size
  rw [counted]
  refine ⟨?_, odd, odd.pos, Nat.le_sub_one_of_lt below, ?_, ?_, ?_⟩
  · rw [← m.split.ncard_subtrees]
    congr 1
    ext path
    simp only [Set.mem_ofPred_eq, ClauseMatrix.isSome_subtree?_split_iff, ← Bool.not_eq_true,
      ClauseMatrix.satisfiedBy_iff, Row.satisfiedBy_iff]
  · intro narrow
    have inRange : 2 ^ (m.width + 1) ≤ 2 ^ 64 := Nat.pow_le_pow_right (by omega) (by omega)
    exact below.trans_le inRange
  · exact size_splitRows_eq_one_iff 0 m.rows m.width
  · intro unsatisfiable
    exact Nat.eq_sub_of_add_eq (ClauseMatrix.size_split_of_not_satisfiable unsatisfiable)

/-- One row over two columns: the root, the leaf where the first column satisfies it, and
the node beside that leaf with two leaves of its own. -/
example :
    (Splitter.new ⟨2, [[some .positive, some .positive]], by decide⟩).solve.2.nodes = 5 :=
  rfl

end Clausal
