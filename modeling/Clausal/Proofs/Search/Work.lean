/-
# The work of the two searches

A case split builds its whole pruned tree, the true branch first, and backtracking
checks complete assignments, the false branch first, until one passes. Both walk
along the truth table of the matrix, one from each end: the leaves of the tree are
the table read downwards, and the assignments are checked upwards. So the checks
that fail before the first success are the leaves behind the last satisfied one,
and without any success each check is a leaf.
-/

import Clausal.Proofs.Search.Backtracking
import Clausal.Proofs.Search.Nodes
import Clausal.Proofs.Search.TruthTable

namespace Clausal

theorem findIdx_append_cons_of_first {α : Type} {p : α → Bool} {before : List α} {a : α}
    (misses : ∀ b ∈ before, p b = false) (holds : p a = true) (after : List α) :
    (before ++ a :: after).findIdx p = before.length := by
  rw [List.findIdx_append, List.findIdx_eq_length.mpr misses, if_neg (Nat.lt_irrefl _),
    List.findIdx_cons, holds, cond_true, Nat.zero_add]

namespace Leaf

variable {width : Nat} {leaves : List Leaf}

/-- The entries of a leaf are all alike, so their order does not matter. -/
theorem reverse_entries (leaf : Leaf) : (leaf.entries width).reverse = leaf.entries width := by
  cases leaf with
  | satisfied depth => exact List.reverse_replicate
  | unsatisfied depth rows => rfl

/-- A satisfied leaf is at least one entry of the table, a zero. -/
theorem exists_entries_satisfied_eq_cons (width depth : Nat) :
    ∃ others, entries width (satisfied depth) = 0 :: others := by
  refine ⟨List.replicate (2 ^ (width - depth) - 1) 0, ?_⟩
  rw [entries, ← List.replicate_succ, Nat.sub_add_cancel (Nat.two_pow_pos _)]

/-- A leaf that leaves rows unsatisfied is one entry of the table, and no zero. -/
theorem exists_entries_eq_of_unsatisfied {leaf : Leaf} (within : leaf.Within width)
    (unsatisfied : leaf.isSatisfied = false) : ∃ rows, leaf.entries width = [rows] ∧ rows ≠ 0 := by
  cases leaf with
  | satisfied depth => cases unsatisfied
  | unsatisfied depth rows => exact ⟨rows, rfl, within.2.ne'⟩

theorem length_flatMap_entries_of_unsatisfied (within : ∀ leaf ∈ leaves, leaf.Within width)
    (unsatisfied : ∀ leaf ∈ leaves, leaf.isSatisfied = false) :
    (leaves.flatMap (entries width)).length = leaves.length := by
  have single : ∀ leaf ∈ leaves, (leaf.entries width).length = 1 := by
    intro leaf present
    rcases exists_entries_eq_of_unsatisfied (within leaf present) (unsatisfied leaf present) with
      ⟨rows, one, -⟩
    rw [one, List.length_singleton]
  calc
    (leaves.flatMap (entries width)).length = (leaves.map fun _ => 1).sum := by
      rw [List.length_flatMap, List.map_congr_left single]
    _ = leaves.length := by rw [List.map_const', List.sum_replicate_nat, Nat.mul_one]

theorem ne_zero_of_mem_flatMap_entries (within : ∀ leaf ∈ leaves, leaf.Within width)
    (unsatisfied : ∀ leaf ∈ leaves, leaf.isSatisfied = false) :
    ∀ rows ∈ leaves.flatMap (entries width), rows ≠ 0 := by
  intro rows listed
  rcases List.mem_flatMap.mp listed with ⟨leaf, present, entered⟩
  rcases exists_entries_eq_of_unsatisfied (within leaf present) (unsatisfied leaf present) with
    ⟨left, one, nonzero⟩
  rw [one, List.mem_singleton] at entered
  subst entered
  exact nonzero

/-- Where some leaf is satisfied, there is a last one. -/
theorem exists_last_satisfied (found : leaves.any isSatisfied = true) :
    ∃ before depth after, leaves = before ++ satisfied depth :: after ∧
      ∀ leaf ∈ after, leaf.isSatisfied = false := by
  have foundBackwards : (leaves.reverse.find? isSatisfied).isSome = true := by
    simpa [List.find?_isSome] using found
  rcases Option.isSome_iff_exists.mp foundBackwards with ⟨leaf, last⟩
  rcases List.find?_eq_some_iff_append.mp last with ⟨holds, after, before, split, unsatisfied⟩
  cases leaf with
  | unsatisfied depth rows => cases holds
  | satisfied depth =>
      refine ⟨before.reverse, depth, after.reverse, ?_, ?_⟩
      · rw [← List.reverse_inj, split]
        simp
      · simpa using unsatisfied

end Leaf

namespace ClauseMatrix

variable {m : ClauseMatrix}

/-- Some leaf is satisfied exactly when the matrix has a model. -/
theorem any_isSatisfied_leaves_split :
    m.split.leaves.any Leaf.isSatisfied = true ↔ m.Satisfiable := by
  rw [← DecisionTree.satisfiable_eq_any_leaves, split_satisfiable_iff]

/-- Read upwards, the table lists the assignments in the order of their check. -/
theorem findIdx_satisfiedBy_all (m : ClauseMatrix) :
    (Assignment.all m.width).findIdx m.satisfiedBy = m.truthTable.reverse.findIdx (· == 0) := by
  have passes : m.satisfiedBy = (· == 0) ∘ failedRows m.rows := by
    funext assignment
    rw [Bool.eq_iff_iff]
    show _ ↔ (failedRows m.rows assignment == 0) = true
    rw [beq_iff_eq, failedRows_eq_zero_iff]
  rw [truthTable, ← List.map_reverse, List.reverse_reverse, List.findIdx_map, ← passes]

@[simp]
theorem length_truthTable (m : ClauseMatrix) : m.truthTable.length = 2 ^ m.width := by
  simp [truthTable]

end ClauseMatrix

namespace Backtracker

/-- A fresh search checks the assignments in their order. -/
theorem assignments_solve_new_eq_tried (m : ClauseMatrix) :
    (new m).solve.2.assignments = Trail.tried m (Assignment.all m.width) := by
  simp [solve, new, assignments, Trail.search_eq_scan, Trail.scan, Trail.completions, Trail.empty]

/-- A fresh search checks the assignments up to the first that fails no row. -/
theorem assignments_solve_new (m : ClauseMatrix) :
    (new m).solve.2.assignments =
      min (m.truthTable.reverse.findIdx (· == 0) + 1) (2 ^ m.width) := by
  rw [assignments_solve_new_eq_tried, Trail.tried, m.findIdx_satisfiedBy_all, Assignment.length_all]

/-- Without a model, every assignment is checked. -/
theorem assignments_solve_new_of_not_satisfiable {m : ClauseMatrix}
    (unsatisfiable : ¬ m.Satisfiable) : (new m).solve.2.assignments = 2 ^ m.width := by
  have nonePasses : (Assignment.all m.width).any m.satisfiedBy = false := by
    rw [List.any_eq_false]
    intro assignment listed passes
    exact unsatisfiable ⟨assignment, Assignment.mem_all.mp listed, passes⟩
  rw [assignments_solve_new_eq_tried, Trail.tried_of_not_any nonePasses, Assignment.length_all]

end Backtracker

namespace ClauseMatrix

variable {m : ClauseMatrix}

/-- Without a model, every assignment is checked and every leaf is at full depth. -/
theorem nodes_add_one_of_not_satisfiable (unsatisfiable : ¬ m.Satisfiable) :
    (Splitter.new m).solve.2.nodes + 1 = 2 * (Backtracker.new m).solve.2.assignments := by
  calc
    m.split.size + 1 = 2 ^ (m.width + 1) := size_split_of_not_satisfiable unsatisfiable
    _ = 2 * 2 ^ m.width := Nat.pow_succ'
    _ = 2 * (Backtracker.new m).solve.2.assignments := by
      rw [Backtracker.assignments_solve_new_of_not_satisfiable unsatisfiable]

theorem reverse_truthTable (m : ClauseMatrix) :
    m.truthTable.reverse = m.split.leaves.reverse.flatMap (Leaf.entries m.width) := by
  rw [← flatMap_entries_leaves_split, List.reverse_flatMap]
  congr 1
  funext leaf
  exact leaf.reverse_entries

/-- Read upwards, the table begins with one nonzero entry for each leaf behind the last
satisfied one, and then comes a zero. -/
theorem exists_reverse_truthTable_eq {before after : List Leaf} {depth : Nat}
    (split : m.split.leaves = before ++ .satisfied depth :: after)
    (unsatisfied : ∀ leaf ∈ after, leaf.isSatisfied = false) :
    ∃ failing others, m.truthTable.reverse = failing ++ 0 :: others ∧
      failing.length = after.length ∧ ∀ rows ∈ failing, rows ≠ 0 := by
  have within : ∀ leaf ∈ after.reverse, leaf.Within m.width := by
    intro leaf present
    apply m.within_of_mem_leaves_split
    simp [split, List.mem_reverse.mp present]
  have unsatisfiedReverse : ∀ leaf ∈ after.reverse, leaf.isSatisfied = false := by
    simpa using unsatisfied
  obtain ⟨others, zero⟩ := Leaf.exists_entries_satisfied_eq_cons m.width depth
  refine ⟨after.reverse.flatMap (Leaf.entries m.width),
    others ++ before.reverse.flatMap (Leaf.entries m.width), ?_, ?_, ?_⟩
  · rw [reverse_truthTable, split]
    simp [zero]
  · rw [Leaf.length_flatMap_entries_of_unsatisfied within unsatisfiedReverse, List.length_reverse]
  · exact Leaf.ne_zero_of_mem_flatMap_entries within unsatisfiedReverse

/-- With a model, the checks before the successful one are the leaves behind the last
satisfied leaf. -/
theorem assignments_of_last_satisfied {before after : List Leaf} {depth : Nat}
    (split : m.split.leaves = before ++ .satisfied depth :: after)
    (unsatisfied : ∀ leaf ∈ after, leaf.isSatisfied = false) :
    (Backtracker.new m).solve.2.assignments = after.length + 1 := by
  obtain ⟨failing, others, upwards, sameLength, nonzero⟩ :=
    exists_reverse_truthTable_eq split unsatisfied
  have misses : ∀ rows ∈ failing, (rows == 0) = false := by simpa using nonzero
  have tableLength : (failing ++ 0 :: others).length = 2 ^ m.width := by
    rw [← upwards, List.length_reverse, length_truthTable]
  rw [List.length_append, List.length_cons] at tableLength
  rw [Backtracker.assignments_solve_new, upwards, findIdx_append_cons_of_first misses rfl]
  omega

/-- The two searches account for each other's work. Without a model, the tree has one node
less than twice the assignments checked. With one, the checks that fail are as many as the
leaves that the split reports after the last satisfied one. -/
theorem split_and_search_share_work (m : ClauseMatrix) :
    (¬ m.Satisfiable ∧
        (Splitter.new m).solve.2.nodes + 1 = 2 * (Backtracker.new m).solve.2.assignments) ∨
      (m.Satisfiable ∧ ∃ before depth after,
        m.splitEvents.filterMap Event.leaf? = before ++ .satisfied depth :: after ∧
          (∀ leaf ∈ after, leaf.isSatisfied = false) ∧
            (Backtracker.new m).solve.2.assignments = after.length + 1) := by
  rw [filterMap_leaf?_splitEvents]
  by_cases satisfiable : m.Satisfiable
  · obtain ⟨before, depth, after, split, unsatisfied⟩ :=
      Leaf.exists_last_satisfied (any_isSatisfied_leaves_split.mpr satisfiable)
    exact Or.inr ⟨satisfiable, before, depth, after, split, unsatisfied,
      assignments_of_last_satisfied split unsatisfied⟩
  · exact Or.inl ⟨satisfiable, nodes_add_one_of_not_satisfiable satisfiable⟩

end ClauseMatrix

end Clausal
