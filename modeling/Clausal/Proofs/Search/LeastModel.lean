/-
# The first model in order

Backtracking checks the assignments in their order and stops at the first that passes. So
it accepts one assignment at most, the least model, and the number of checks tells the
place of that model among all assignments, models or not.

The place of an assignment can be read off the assignment itself: it is the binary number
whose digits are the signs. An assignment comes before another of the same length when its
number is smaller, and no number is left out.
-/

import Clausal.Proofs.Search.Work
import Clausal.Proofs.Workbench
import Mathlib.Order.Interval.Set.Nat
import Mathlib.Tactic.Ring

namespace Clausal

namespace Assignment

variable {first second : Assignment}

theorem precedes_cons_cons_iff {sign : Sign} :
    Precedes (sign :: first) (sign :: second) ↔ Precedes first second := by
  rw [Precedes, List.cons_lex_cons_iff]
  simp [Precedes]

theorem not_positive_precedes_negative (first second : Assignment) :
    ¬ Precedes (.positive :: first) (.negative :: second) := by
  rw [Precedes, List.cons_lex_cons_iff]
  simp [Sign.toInt]

/-- Further digits shift those before them. -/
theorem foldl_binary (value : Nat) (assignment : Assignment) :
    assignment.foldl (fun value sign => 2 * value + sign.toBool.toNat) value =
      value * 2 ^ assignment.length + assignment.rank := by
  rw [rank]
  induction assignment generalizing value with
  | nil => simp
  | cons sign rest ih =>
      rw [List.foldl_cons, List.foldl_cons, ih, ih (2 * 0 + sign.toBool.toNat), List.length_cons]
      ring

/-- The first sign is the most significant digit. -/
theorem rank_cons (sign : Sign) (rest : Assignment) :
    rank (sign :: rest) = sign.toBool.toNat * 2 ^ rest.length + rank rest := by
  show rest.foldl _ (2 * 0 + sign.toBool.toNat) = _
  rw [foldl_binary, Nat.mul_zero, Nat.zero_add]

@[simp]
theorem rank_negative_cons (rest : Assignment) : rank (.negative :: rest) = rank rest := by
  simp [rank_cons, Sign.toBool]

@[simp]
theorem rank_positive_cons (rest : Assignment) :
    rank (.positive :: rest) = 2 ^ rest.length + rank rest := by
  simp [rank_cons, Sign.toBool]

theorem rank_lt (assignment : Assignment) : assignment.rank < 2 ^ assignment.length := by
  induction assignment with
  | nil => decide
  | cons sign rest ih =>
      rw [List.length_cons, Nat.pow_succ]
      cases sign with
      | negative =>
          rw [rank_negative_cons]
          omega
      | positive =>
          rw [rank_positive_cons]
          omega

/-- Listed in their order, the assignments have the numbers from zero on without a gap. -/
theorem map_rank_all (columns : Nat) : (all columns).map rank = List.range (2 ^ columns) := by
  induction columns with
  | zero => rfl
  | succ columns ih =>
      have upperHalf : (all columns).map (rank ∘ List.cons .positive) =
          ((all columns).map rank).map (2 ^ columns + ·) := by
        rw [List.map_map]
        apply List.map_congr_left
        intro rest listed
        show rank (.positive :: rest) = 2 ^ columns + rank rest
        rw [rank_positive_cons, mem_all.mp listed]
      have lowerHalf : rank ∘ List.cons .negative = rank := funext rank_negative_cons
      rw [all, List.map_append, List.map_map, List.map_map, lowerHalf, upperHalf, ih, Nat.pow_succ,
        Nat.mul_two, List.range_add]

/-- The place of an assignment among all is its number. -/
theorem rank_getElem_all {columns place : Nat} (inside : place < (all columns).length) :
    (all columns)[place].rank = place := by
  have numbers : ((all columns).map rank)[place]? = (List.range (2 ^ columns))[place]? :=
    congrArg (fun ranks : List Nat => ranks[place]?) (map_rank_all columns)
  rw [List.getElem?_map, List.getElem?_eq_getElem inside, Option.map_some,
    List.getElem?_range (by simpa using inside)] at numbers
  exact Option.some.inj numbers

/-- Assignments of one length come in the order of their numbers. -/
theorem precedes_iff_rank_lt (sameLength : first.length = second.length) :
    Precedes first second ↔ first.rank < second.rank := by
  induction first generalizing second with
  | nil =>
      obtain rfl := List.eq_nil_of_length_eq_zero sameLength.symm
      exact iff_of_false (Precedes.irrefl []) (Nat.lt_irrefl _)
  | cons sign first ih =>
      cases second with
      | nil => cases sameLength
      | cons other second =>
          have restLength : first.length = second.length := Nat.succ.inj sameLength
          have firstBelow := rank_lt first
          have secondBelow := rank_lt second
          cases sign with
          | negative =>
              cases other with
              | negative =>
                  rw [precedes_cons_cons_iff, rank_negative_cons, rank_negative_cons]
                  exact ih restLength
              | positive =>
                  apply iff_of_true (negative_precedes_positive first second)
                  rw [rank_negative_cons, rank_positive_cons, ← restLength]
                  omega
          | positive =>
              cases other with
              | negative =>
                  apply iff_of_false (not_positive_precedes_negative first second)
                  rw [rank_negative_cons, rank_positive_cons, restLength]
                  omega
              | positive =>
                  rw [precedes_cons_cons_iff, rank_positive_cons, rank_positive_cons, ← restLength,
                    Nat.add_lt_add_iff_left]
                  exact ih restLength

/-- Different assignments of one length have different numbers. -/
theorem eq_of_rank_eq {columns : Nat} (firstLength : first.length = columns)
    (secondLength : second.length = columns) (sameRank : first.rank = second.rank) :
    first = second := by
  obtain ⟨place, inside, rfl⟩ := List.mem_iff_getElem.mp (mem_all.mpr firstLength)
  obtain ⟨other, otherInside, rfl⟩ := List.mem_iff_getElem.mp (mem_all.mpr secondLength)
  rw [rank_getElem_all, rank_getElem_all] at sameRank
  subst sameRank
  rfl

/-- The number of an assignment counts those that come before it. -/
theorem ncard_precedes (assignment : Assignment) :
    Set.ncard {other : Assignment |
        other.length = assignment.length ∧ other.Precedes assignment} = assignment.rank := by
  have distinct : Set.InjOn rank {other : Assignment |
      other.length = assignment.length ∧ other.Precedes assignment} := by
    intro first firstBefore second secondBefore sameRank
    exact eq_of_rank_eq firstBefore.1 secondBefore.1 sameRank
  have numbers : rank '' {other : Assignment |
      other.length = assignment.length ∧ other.Precedes assignment} =
        Set.Iio assignment.rank := by
    ext place
    apply Iff.intro
    · intro numbered
      rcases numbered with ⟨other, ⟨sameLength, precedes⟩, rfl⟩
      exact (precedes_iff_rank_lt sameLength).mp precedes
    · intro below
      have inside : place < (all assignment.length).length := by
        rw [length_all]
        exact Nat.lt_trans below (rank_lt assignment)
      have sameLength := mem_all.mp (List.getElem_mem inside)
      have number := rank_getElem_all inside
      refine ⟨(all assignment.length)[place], ⟨sameLength, ?_⟩, number⟩
      rw [precedes_iff_rank_lt sameLength, number]
      exact below
  rw [← distinct.ncard_image, numbers, Set.ncard_Iio_nat]

end Assignment

namespace ClauseMatrix

variable {m : ClauseMatrix} {least : Assignment}

/-- Each column is given a sign, and every row has a cell with the sign of its column. -/
def IsModel (m : ClauseMatrix) (assignment : Assignment) : Prop :=
  assignment.length = m.width ∧
    ∀ row ∈ m.rows, ∃ (column : Nat) (sign : Sign),
      row[column]? = some (some sign) ∧ assignment[column]? = some sign

/-- The models are the assignments that pass the check. -/
theorem isModel_iff {assignment : Assignment} :
    m.IsModel assignment ↔ assignment.length = m.width ∧ m.satisfiedBy assignment = true := by
  simp only [IsModel, satisfiedBy_iff, Row.satisfiedBy_iff]

/-- The assignment is a model, and no other model comes before it. -/
structure IsLeastModel (m : ClauseMatrix) (least : Assignment) : Prop where
  isModel : m.IsModel least
  least : ∀ other : Assignment, m.IsModel other → other = least ∨ least.Precedes other

/-- The first assignment that passes is the least model. -/
theorem isLeastModel_of_find?_eq_some
    (found : (Assignment.all m.width).find? m.satisfiedBy = some least) : m.IsLeastModel least where
  isModel :=
    isModel_iff.mpr ⟨Assignment.mem_all.mp (List.mem_of_find?_eq_some found), List.find?_some found⟩
  least := by
    obtain ⟨-, place, inside, rfl, missed⟩ := List.find?_eq_some_iff_getElem.mp found
    intro other otherModel
    obtain ⟨otherLength, otherPasses⟩ := isModel_iff.mp otherModel
    obtain ⟨otherPlace, otherInside, rfl⟩ :=
      List.mem_iff_getElem.mp (Assignment.mem_all.mpr otherLength)
    rcases Nat.lt_trichotomy otherPlace place with before | same | behind
    · have fails := missed otherPlace before
      simp [otherPasses] at fails
    · subst same
      exact Or.inl rfl
    · exact Or.inr (List.pairwise_iff_getElem.mp (Assignment.pairwise_precedes_all m.width) _ _
        inside otherInside behind)

/-- The checks up to the first assignment that passes are as many as its number, and one. -/
theorem tried_all_of_find?_eq_some
    (found : (Assignment.all m.width).find? m.satisfiedBy = some least) :
    Trail.tried m (Assignment.all m.width) = least.rank + 1 := by
  obtain ⟨passes, place, inside, rfl, missed⟩ := List.find?_eq_some_iff_getElem.mp found
  have firstPlace : (Assignment.all m.width).findIdx m.satisfiedBy = place :=
    (List.findIdx_eq inside).mpr ⟨passes, by simpa using missed⟩
  rw [Trail.tried, firstPlace, Assignment.rank_getElem_all]
  omega

end ClauseMatrix

namespace Backtracker

/-- Earlier searches have no influence on a search. -/
theorem solve_iterate (m : ClauseMatrix) (earlier : Nat) :
    ((fun backtracker : Backtracker => backtracker.solve.2)^[earlier] (new m)).solve =
      (new m).solve := by
  induction earlier with
  | zero => rfl
  | succ earlier ih => rw [Function.iterate_succ_apply', solve_solve, ih]

/-- What a new search accepts: the first assignment that passes, if there is one. -/
theorem accepted_solve_new (m : ClauseMatrix) :
    (new m).solve.2.trail.accepted =
      ((Assignment.all m.width).find? m.satisfiedBy).toList := by
  simp [solve, new, Trail.search_eq_scan, Trail.scan, Trail.completions, Trail.empty]

/-- Without a model nothing is accepted. -/
theorem accepted_solve_new_of_not_satisfiable {m : ClauseMatrix}
    (unsatisfiable : ¬ m.Satisfiable) : (new m).solve.2.trail.accepted = [] := by
  have nonePasses : (Assignment.all m.width).find? m.satisfiedBy = none := by
    rw [List.find?_eq_none]
    intro assignment listed passes
    exact unsatisfiable ⟨assignment, Assignment.mem_all.mp listed, passes⟩
  rw [accepted_solve_new, nonePasses]
  rfl

/-- With a model the least one is accepted, and nothing is checked after it. -/
theorem exists_isLeastModel_accepted {m : ClauseMatrix} (satisfiable : m.Satisfiable) :
    ∃ least, (new m).solve.2.trail.accepted = [least] ∧ m.IsLeastModel least ∧
      (new m).solve.2.assignments = least.rank + 1 := by
  obtain ⟨model, complete, passes⟩ := satisfiable
  have found : ((Assignment.all m.width).find? m.satisfiedBy).isSome = true :=
    List.find?_isSome.mpr ⟨model, Assignment.mem_all.mpr complete, passes⟩
  obtain ⟨least, foundLeast⟩ := Option.isSome_iff_exists.mp found
  refine ⟨least, ?_, ClauseMatrix.isLeastModel_of_find?_eq_some foundLeast, ?_⟩
  · rw [accepted_solve_new, foundLeast]
    rfl
  · rw [assignments_solve_new_eq_tried]
    exact ClauseMatrix.tried_all_of_find?_eq_some foundLeast

theorem searchEvents_eq (m : ClauseMatrix) :
    m.searchEvents = (new m).solve.2.trail.accepted.map .assignmentAccepted ++
      [.searchEnded m (new m).solve.2.assignments (new m).solve.1.toBool] := by
  rw [solve, Verdict.toBool_ofBool]
  rfl

theorem assignments_solve_new_le (m : ClauseMatrix) :
    (new m).solve.2.assignments ≤ 2 ^ m.width := by
  rw [assignments_solve_new]
  exact Nat.min_le_right _ _

/-- A search checks the assignments in their order up to the least model, and that one is all
it accepts and reports: without a model it checks every assignment and reports none, and with
one the number of checks is the place of the least model, counted from one. Its place is the
number of all assignments before it, which is its reading as a binary number. This is so
however many searches came before, and with up to 63 columns the count fits in 64 bits. An
accepted assignment is told by the numbers of its signs, and the search as a whole by its
count and its verdict. -/
theorem solve_stops_at_least_model (m : ClauseMatrix) (earlier : Nat) :
    let before := (fun backtracker : Backtracker => backtracker.solve.2)^[earlier] (new m)
    let accepted := before.solve.2.trail.accepted
    let checked := before.solve.2.assignments
    let satisfiable := before.solve.1.toBool
    m.searchEvents = accepted.map .assignmentAccepted ++
        [.searchEnded m checked satisfiable] ∧
      m.searchEvents.map Event.message =
        accepted.map (fun assignment => "satisfying assignment " ++
          ("[" ++ ", ".intercalate (assignment.map fun sign => toString sign.toInt) ++ "]")) ++
          [s!"backtrack: {m.width} literals, {m.rows.length} clauses, " ++
            s!"{checked} assignments checked, satisfiable = {satisfiable}"] ∧
      ((¬ ∃ model, m.IsModel model) → accepted = [] ∧ checked = 2 ^ m.width) ∧
      ((∃ model, m.IsModel model) → ∃ least, accepted = [least] ∧ m.IsLeastModel least ∧
        checked = least.rank + 1 ∧
        least.rank = Set.ncard {other : Assignment |
          other.length = m.width ∧ other.Precedes least}) ∧
      checked ≤ 2 ^ m.width ∧ (m.width ≤ 63 → checked < UInt64.size) := by
  intro before accepted checked satisfiable
  have sameSearch : before.solve = (new m).solve := solve_iterate m earlier
  have events : m.searchEvents = accepted.map .assignmentAccepted ++
      [.searchEnded m checked satisfiable] := by
    rw [searchEvents_eq, ← sameSearch]
  have acceptedEq : accepted = (new m).solve.2.trail.accepted :=
    congrArg (fun result => result.2.trail.accepted) sameSearch
  have checkedEq : checked = (new m).solve.2.assignments :=
    congrArg (fun result => result.2.assignments) sameSearch
  have bounded := assignments_solve_new_le m
  rw [← checkedEq] at bounded
  refine ⟨events, ?_, ?_, ?_, bounded, ?_⟩
  · rw [events, List.map_append, List.map_map]
    rfl
  · intro noModel
    have unsatisfiable : ¬ m.Satisfiable := fun satisfiable =>
      noModel (ClauseMatrix.satisfiable_iff_columns.mp satisfiable)
    rw [acceptedEq, checkedEq]
    exact ⟨accepted_solve_new_of_not_satisfiable unsatisfiable,
      assignments_solve_new_of_not_satisfiable unsatisfiable⟩
  · intro someModel
    obtain ⟨least, accepted, isLeast, counted⟩ :=
      exists_isLeastModel_accepted (ClauseMatrix.satisfiable_iff_columns.mpr someModel)
    rw [acceptedEq, checkedEq]
    refine ⟨least, accepted, isLeast, counted, ?_⟩
    rw [← isLeast.isModel.1]
    exact (Assignment.ncard_precedes least).symm
  · intro narrow
    have inRange : 2 ^ m.width ≤ 2 ^ 63 := Nat.pow_le_pow_right (by decide) narrow
    exact Nat.lt_of_le_of_lt (bounded.trans inRange) (by decide)

/-- The first column may not be negative and the second not positive, so the third of four
assignments is the first to pass. -/
example :
    (new ⟨2, [[some .positive, none], [none, some .negative]], by decide⟩).solve.2.trail =
      ⟨#[], 3, [[.positive, .negative]]⟩ :=
  rfl

end Backtracker

end Clausal
