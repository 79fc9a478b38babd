/-
# The truth table of a case split

A leaf stands for all assignments that begin with the choices on the way to it.
A leaf without open rows stands for as many models as there are ways to fill the
remaining columns, and a leaf at full depth for one assignment and the rows that
it fails. Put next to each other, the leaves of a split are therefore the whole
truth table of the matrix: for each assignment the number of rows it fails, from
the assignment of positive signs only down to that of negative ones.
-/

import Clausal.Log.Account
import Clausal.Matrix.Assignment
import Clausal.Proofs.Search.Splitting
import Mathlib.Data.Set.Card

namespace Clausal

namespace Assignment

/-- The order of assignments: the first column in which they differ decides, and
the negative sign comes first. -/
def Precedes (first second : Assignment) : Prop :=
  List.Lex (fun a b : Sign => a.toInt < b.toInt) first second

theorem Precedes.cons (sign : Sign) {first second : Assignment} (precedes : Precedes first second) :
    Precedes (sign :: first) (sign :: second) :=
  List.Lex.cons precedes

theorem negative_precedes_positive (first second : Assignment) :
    Precedes (.negative :: first) (.positive :: second) :=
  List.Lex.rel (by decide)

theorem Precedes.irrefl (assignment : Assignment) : ¬ Precedes assignment assignment := by
  intro precedes
  induction assignment with
  | nil => cases precedes
  | cons sign rest ih =>
      cases precedes with
      | rel below => exact lt_irrefl _ below
      | cons tailPrecedes => exact ih tailPrecedes

/-- The assignments are listed in their order. -/
theorem pairwise_precedes_all (columns : Nat) : (all columns).Pairwise Precedes := by
  induction columns with
  | zero => exact List.pairwise_singleton _ _
  | succ columns ih =>
      refine List.pairwise_append.mpr ⟨?_, ?_, ?_⟩
      · exact List.pairwise_map.mpr (ih.imp (Precedes.cons .negative))
      · exact List.pairwise_map.mpr (ih.imp (Precedes.cons .positive))
      · intro first inFirst second inSecond
        obtain ⟨firstRest, -, rfl⟩ := List.mem_map.mp inFirst
        obtain ⟨secondRest, -, rfl⟩ := List.mem_map.mp inSecond
        exact negative_precedes_positive firstRest secondRest

theorem nodup_all (columns : Nat) : (all columns).Nodup := by
  refine (pairwise_precedes_all columns).imp ?_
  rintro first second precedes rfl
  exact Precedes.irrefl first precedes

/-- In descending order the positive sign of the first column comes first. -/
theorem reverse_all_succ (columns : Nat) :
    (all (columns + 1)).reverse =
      (all columns).reverse.map (List.cons .positive) ++
        (all columns).reverse.map (List.cons .negative) := by
  simp [all]

end Assignment

/-- How many rows an assignment fails. -/
def failedRows (rows : List Row) (assignment : Assignment) : Nat :=
  rows.countP fun row => !row.satisfiedBy assignment

theorem length_openRows (rows : List Row) (assignment : Assignment) :
    (openRows rows assignment).length = failedRows rows assignment :=
  List.countP_eq_length_filter.symm

/-- Once nothing is open, no completion fails a row. -/
theorem failedRows_append_of_openRows_eq_nil {rows : List Row} {path : Assignment}
    (done : openRows rows path = []) (rest : Assignment) : failedRows rows (path ++ rest) = 0 := by
  rw [← length_openRows, List.length_eq_zero_iff, openRows_eq_nil_iff]
  intro row present
  exact Row.satisfiedBy_append (openRows_eq_nil_iff.mp done row present) rest

theorem ClauseMatrix.failedRows_eq_zero_iff {m : ClauseMatrix} {assignment : Assignment} :
    failedRows m.rows assignment = 0 ↔ m.satisfiedBy assignment = true := by
  simp [failedRows, ClauseMatrix.satisfiedBy]

namespace Leaf

/-- The part of a truth table that a leaf stands for. -/
def entries (width : Nat) : Leaf → List Nat
  | satisfied depth => List.replicate (2 ^ (width - depth)) 0
  | unsatisfied _ rows => [rows]

/-- A leaf is at most as deep as there are columns. One that leaves rows
unsatisfied is exactly as deep. -/
def Within (width : Nat) : Leaf → Prop
  | satisfied depth => depth ≤ width
  | unsatisfied depth rows => depth = width ∧ 0 < rows

/-- The depth of a leaf without open rows. -/
def satisfiedDepth? : Leaf → Option Nat
  | satisfied depth => some depth
  | unsatisfied _ _ => none

variable {width : Nat} {leaves : List Leaf}

/-- The models in the table are counted by the leaves without open rows. -/
theorem count_zero_flatMap_entries (within : ∀ leaf ∈ leaves, leaf.Within width) :
    (leaves.flatMap (entries width)).count 0 =
      ((leaves.filterMap satisfiedDepth?).map fun depth => 2 ^ (width - depth)).sum := by
  induction leaves with
  | nil => rfl
  | cons leaf rest ih =>
      obtain ⟨inside, restInside⟩ := List.forall_mem_cons.mp within
      rw [List.flatMap_cons, List.count_append, ih restInside, List.filterMap_cons]
      cases leaf with
      | satisfied depth => simp [entries, satisfiedDepth?]
      | unsatisfied depth rows =>
          have someLeft : rows ≠ 0 := inside.2.ne'
          simp [entries, satisfiedDepth?, someLeft]

/-- The other entries of the table are the leaves that leave rows unsatisfied. -/
theorem map_unsatisfied_filter_entries (within : ∀ leaf ∈ leaves, leaf.Within width) :
    ((leaves.flatMap (entries width)).filter (· != 0)).map (unsatisfied width) =
      leaves.filter fun leaf => !leaf.isSatisfied := by
  induction leaves with
  | nil => rfl
  | cons leaf rest ih =>
      obtain ⟨inside, restInside⟩ := List.forall_mem_cons.mp within
      rw [List.flatMap_cons, List.filter_append, List.map_append, ih restInside]
      cases leaf with
      | satisfied depth => simp [entries, isSatisfied]
      | unsatisfied depth rows =>
          obtain ⟨rfl, someLeft⟩ := inside
          simp [entries, isSatisfied, someLeft.ne']

end Leaf

/-- The leaves below a path are no deeper than the path and the columns left. -/
theorem within_of_mem_leaves_splitRows (rows : List Row) (path : Assignment) (remaining : Nat) :
    ∀ leaf ∈ (splitRows path.length (openRows rows path) remaining).leaves,
      leaf.Within (path.length + remaining) := by
  induction remaining generalizing path with
  | zero =>
      by_cases done : openRows rows path = []
      · simp [done, DecisionTree.leaves, Leaf.Within]
      · simp [splitRows_zero_of_ne_nil done, DecisionTree.leaves, Leaf.Within,
          List.length_pos_iff.mpr done]
  | succ remaining ih =>
      by_cases done : openRows rows path = []
      · simp [done, DecisionTree.leaves, Leaf.Within]
      · rw [splitRows_openRows_succ done]
        intro leaf present
        rcases List.mem_append.mp present with inTrue | inFalse
        · have inside := ih _ leaf inTrue
          rwa [List.length_append, List.length_singleton, Nat.add_right_comm] at inside
        · have inside := ih _ leaf inFalse
          rwa [List.length_append, List.length_singleton, Nat.add_right_comm] at inside

/-- The leaves below a path are the table of its completions. -/
theorem flatMap_entries_leaves_splitRows (rows : List Row) (path : Assignment) (remaining : Nat) :
    (splitRows path.length (openRows rows path) remaining).leaves.flatMap
        (Leaf.entries (path.length + remaining)) =
      (Assignment.all remaining).reverse.map fun rest => failedRows rows (path ++ rest) := by
  induction remaining generalizing path with
  | zero =>
      by_cases done : openRows rows path = []
      · simp [done, DecisionTree.leaves, Leaf.entries, Assignment.all,
          failedRows_append_of_openRows_eq_nil done]
      · simp [splitRows_zero_of_ne_nil done, DecisionTree.leaves, Leaf.entries, Assignment.all,
          length_openRows]
  | succ remaining ih =>
      by_cases done : openRows rows path = []
      · simp [done, DecisionTree.leaves, Leaf.entries,
          failedRows_append_of_openRows_eq_nil done]
      · have below (sign : Sign) :
            (splitRows (path ++ [sign]).length (openRows rows (path ++ [sign]))
                remaining).leaves.flatMap (Leaf.entries (path.length + (remaining + 1))) =
              (Assignment.all remaining).reverse.map fun rest =>
                failedRows rows (path ++ sign :: rest) := by
          have ofLonger := ih (path ++ [sign])
          rw [List.length_append, List.length_singleton] at ofLonger
          simpa [Nat.add_right_comm, Nat.add_assoc] using ofLonger
        rw [splitRows_openRows_succ done, DecisionTree.leaves, List.flatMap_append,
          below, below, Assignment.reverse_all_succ, List.map_append, List.map_map, List.map_map]
        rfl

namespace ClauseMatrix

/-- For each assignment the number of rows it fails, in descending order. -/
def truthTable (m : ClauseMatrix) : List Nat :=
  (Assignment.all m.width).reverse.map (failedRows m.rows)

theorem within_of_mem_leaves_split (m : ClauseMatrix) :
    ∀ leaf ∈ m.split.leaves, leaf.Within m.width := by
  have root := within_of_mem_leaves_splitRows m.rows [] m.width
  simpa [split] using root

/-- The leaves of a split are the truth table of the matrix. -/
theorem flatMap_entries_leaves_split (m : ClauseMatrix) :
    m.split.leaves.flatMap (Leaf.entries m.width) = m.truthTable := by
  have root := flatMap_entries_leaves_splitRows m.rows [] m.width
  simpa [split, truthTable] using root

/-- The leaves that leave rows unsatisfied are the assignments that are no models. -/
theorem filter_not_isSatisfied_leaves_split (m : ClauseMatrix) :
    (m.split.leaves.filter fun leaf => !leaf.isSatisfied) =
      ((Assignment.all m.width).reverse.filter fun assignment => !m.satisfiedBy assignment).map
        fun assignment => .unsatisfied m.width (failedRows m.rows assignment) := by
  have failing : ((· != 0) ∘ failedRows m.rows) = fun assignment => !m.satisfiedBy assignment := by
    funext assignment
    rw [Bool.eq_iff_iff]
    simp [failedRows_eq_zero_iff]
  rw [← Leaf.map_unsatisfied_filter_entries m.within_of_mem_leaves_split,
    flatMap_entries_leaves_split, truthTable, List.filter_map, List.map_map, failing]
  rfl

/-- A matrix has as many models as its table has zeros. -/
theorem ncard_models (m : ClauseMatrix) :
    Set.ncard {assignment : Assignment |
        assignment.length = m.width ∧ m.satisfiedBy assignment = true} =
      m.truthTable.count 0 := by
  have listed : {assignment : Assignment |
        assignment.length = m.width ∧ m.satisfiedBy assignment = true} =
      ((Assignment.all m.width).filter m.satisfiedBy).toFinset := by
    ext assignment
    simp
  have nodup : ((Assignment.all m.width).filter m.satisfiedBy).Nodup :=
    (Assignment.nodup_all m.width).filter _
  rw [listed, Set.ncard_coe_finset, List.toFinset_card_of_nodup nodup,
    ← List.countP_eq_length_filter, List.count_eq_countP, truthTable, List.countP_map,
    List.countP_reverse]
  apply List.countP_congr
  intro assignment _
  simp [failedRows_eq_zero_iff]

end ClauseMatrix

/-- The leaf that an event of a case split reports. -/
def Event.leaf? : Event → Option Leaf
  | branchEnded leaf => some leaf
  | _ => none

namespace ClauseMatrix

theorem filterMap_leaf?_splitEvents (m : ClauseMatrix) :
    m.splitEvents.filterMap Event.leaf? = m.split.leaves := by
  simp [splitEvents, List.filterMap_append, List.filterMap_map, Event.leaf?, Function.comp_def]

/-- The ends of the branches that a case split reports describe the complete truth
table. A branch that ends satisfied after some choices accounts for all ways to
fill the other columns, and together these are the models. The branches that end
with rows unsatisfied are the assignments that are no models, each once and in
descending order, with the number of rows that they fail. There is one end more
than half the nodes. The texts are those of the ends in their order, and then
that of the split as a whole. -/
theorem splitEvents_describe_truth_table (m : ClauseMatrix) :
    let leaves := m.splitEvents.filterMap Event.leaf?
    let nodes := (Splitter.new m).solve.2.nodes
    let satisfiable := (Splitter.new m).solve.1.toBool
    (∀ depth, .satisfied depth ∈ leaves → depth ≤ m.width) ∧
      ((leaves.filterMap Leaf.satisfiedDepth?).map fun depth => 2 ^ (m.width - depth)).sum =
        Set.ncard {assignment : Assignment |
          assignment.length = m.width ∧ m.satisfiedBy assignment = true} ∧
      (∃ falsifying : List Assignment,
        falsifying.Pairwise (fun earlier later => Assignment.Precedes later earlier) ∧
          (∀ assignment, assignment ∈ falsifying ↔
            assignment.length = m.width ∧ m.satisfiedBy assignment = false) ∧
          (leaves.filter fun leaf => !leaf.isSatisfied) =
            falsifying.map fun assignment =>
              .unsatisfied m.width (m.rows.countP fun row => !row.satisfiedBy assignment)) ∧
      leaves.length = (nodes + 1) / 2 ∧
      m.splitEvents.map Event.message =
        leaves.map (fun
          | .satisfied depth => s!"node at literal {depth}: all clauses satisfied"
          | .unsatisfied depth rows =>
              s!"node at literal {depth}: {rows} clauses left unsatisfied") ++
          [s!"bdd: {m.width} literals, {m.rows.length} clauses, {nodes} nodes, " ++
            s!"satisfiable = {satisfiable}"] := by
  intro leaves nodes satisfiable
  have within := m.within_of_mem_leaves_split
  have leavesEq : leaves = m.split.leaves := m.filterMap_leaf?_splitEvents
  rw [leavesEq]
  refine ⟨fun depth present => within _ present, ?_, ?_, ?_, ?_⟩
  · rw [← Leaf.count_zero_flatMap_entries within, flatMap_entries_leaves_split, ncard_models]
  · refine ⟨(Assignment.all m.width).reverse.filter fun assignment =>
      !m.satisfiedBy assignment, ?_, ?_, ?_⟩
    · exact (List.pairwise_reverse.mpr (Assignment.pairwise_precedes_all m.width)).filter _
    · intro assignment
      simp
    · exact m.filter_not_isSatisfied_leaves_split
  · have counted : m.split.size + 1 = 2 * m.split.leaves.length := m.split.size_add_one
    change m.split.leaves.length = (m.split.size + 1) / 2
    omega
  · have verdict : satisfiable = m.split.satisfiable := Verdict.toBool_ofBool _
    rw [verdict, splitEvents, List.map_append, List.map_map]
    apply congrArg (· ++ _)
    apply List.map_congr_left
    intro leaf _
    cases leaf <;> rfl

end ClauseMatrix

end Clausal
