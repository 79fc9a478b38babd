/-
# Backtracking as a scan

The search pushes and pops signs, but all it does is to check the completions of
the signs chosen so far, in lexicographic order, until one passes. Everything
about its result is read off that scan: the verdict, the stack, which is the
same afterwards on every way out, and both records of the checks.
-/

import Clausal.Matrix.Assignment
import Clausal.Proofs.Matrix.Satisfaction
import Clausal.Search.Backtracking

namespace Clausal

namespace Trail

@[simp]
theorem pop_push (trail : Trail) (sign : Sign) : (trail.push sign).pop = trail := by
  simp [push, pop]

/-- The assignments that begin with the signs chosen so far. -/
def completions (trail : Trail) (remaining : Nat) : List Assignment :=
  (Assignment.all remaining).map fun rest => trail.signs.toList ++ rest

@[simp]
theorem mem_completions {trail : Trail} {remaining : Nat} {assignment : Assignment} :
    assignment ∈ trail.completions remaining ↔
      ∃ rest : Assignment, rest.length = remaining ∧ trail.signs.toList ++ rest = assignment := by
  simp [completions]

@[simp]
theorem length_completions (trail : Trail) (remaining : Nat) :
    (trail.completions remaining).length = 2 ^ remaining := by
  simp [completions]

theorem completions_zero (trail : Trail) : trail.completions 0 = [trail.signs.toList] := by
  simp [completions, Assignment.all]

/-- The completions with the negative sign come before those with the positive. -/
theorem completions_succ (trail : Trail) (remaining : Nat) :
    trail.completions (remaining + 1) =
      (trail.push .negative).completions remaining ++
        (trail.push .positive).completions remaining := by
  simp [completions, Assignment.all, push, Function.comp_def]

/-- How many assignments are checked until one passes. -/
def tried (m : ClauseMatrix) (candidates : List Assignment) : Nat :=
  min (candidates.findIdx m.satisfiedBy + 1) candidates.length

theorem tried_pos {m : ClauseMatrix} {candidates : List Assignment} (present : candidates ≠ []) :
    0 < tried m candidates := by
  have someCandidate := List.length_pos_iff.mpr present
  rw [tried]
  omega

theorem tried_le_length (m : ClauseMatrix) (candidates : List Assignment) :
    tried m candidates ≤ candidates.length :=
  Nat.min_le_right _ _

theorem tried_of_not_any {m : ClauseMatrix} {candidates : List Assignment}
    (missed : candidates.any m.satisfiedBy = false) : tried m candidates = candidates.length := by
  have pastAll : candidates.findIdx m.satisfiedBy = candidates.length :=
    List.findIdx_eq_length.mpr (by simpa using missed)
  rw [tried, pastAll]
  exact Nat.min_eq_right (Nat.le_succ _)

/-- Check assignments one after another until one passes. -/
def scan (m : ClauseMatrix) (candidates : List Assignment) (trail : Trail) : Bool × Trail :=
  (candidates.any m.satisfiedBy,
    { signs := trail.signs
      checked := trail.checked + tried m candidates
      accepted := trail.accepted ++ (candidates.find? m.satisfiedBy).toList })

theorem scan_singleton (m : ClauseMatrix) (trail : Trail) :
    scan m [trail.signs.toList] trail = trail.check m := by
  by_cases passes : m.satisfiedBy trail.signs.toList
  · simp [scan, tried, check, passes]
  · simp [scan, tried, check, passes]

/-- The signs on the stack play no part in a scan. -/
theorem scan_push (m : ClauseMatrix) (candidates : List Assignment) (trail : Trail) (sign : Sign) :
    scan m candidates (trail.push sign) =
      ((scan m candidates trail).1, (scan m candidates trail).2.push sign) :=
  rfl

theorem completions_scan_snd (m : ClauseMatrix) (candidates : List Assignment) (trail : Trail)
    (sign : Sign) (remaining : Nat) :
    ((scan m candidates trail).2.push sign).completions remaining =
      (trail.push sign).completions remaining :=
  rfl

theorem tried_append_of_any {m : ClauseMatrix} {first : List Assignment}
    (found : first.any m.satisfiedBy = true) (second : List Assignment) :
    tried m (first ++ second) = tried m first := by
  have inFirst : first.findIdx m.satisfiedBy < first.length :=
    List.findIdx_lt_length.mpr (List.any_eq_true.mp found)
  rw [tried, tried, List.findIdx_append, if_pos inFirst, List.length_append]
  omega

theorem tried_append_of_not_any {m : ClauseMatrix} {first : List Assignment}
    (missed : first.any m.satisfiedBy = false) (second : List Assignment) :
    tried m (first ++ second) = tried m first + tried m second := by
  have pastFirst : first.findIdx m.satisfiedBy = first.length :=
    List.findIdx_eq_length.mpr (by simpa using missed)
  rw [tried, tried, tried, List.findIdx_append, if_neg (by omega), List.length_append, pastFirst]
  omega

/-- A scan of two lists goes on to the second only if nothing passes in the
first, and with the counts that the first has left. -/
theorem scan_append (m : ClauseMatrix) (first second : List Assignment) (trail : Trail) :
    scan m (first ++ second) trail =
      if (scan m first trail).1 then (true, (scan m first trail).2)
      else scan m second (scan m first trail).2 := by
  cases passing : first.find? m.satisfiedBy with
  | some assignment =>
      have found : first.any m.satisfiedBy = true :=
        List.any_eq_true.mpr ⟨assignment, List.mem_of_find?_eq_some passing,
          List.find?_some passing⟩
      simp [scan, found, tried_append_of_any found, List.find?_append, passing]
  | none =>
      have missed : first.any m.satisfiedBy = false := by simpa using passing
      simp [scan, missed, tried_append_of_not_any missed, List.find?_append, passing,
        Nat.add_assoc]

/-- A search is the scan of all completions of the signs chosen so far. -/
theorem searchRemaining_eq_scan (m : ClauseMatrix) (remaining : Nat) (trail : Trail) :
    searchRemaining m remaining trail = scan m (trail.completions remaining) trail := by
  induction remaining generalizing trail with
  | zero => rw [searchRemaining, completions_zero, scan_singleton]
  | succ remaining ih =>
      rw [searchRemaining, completions_succ, scan_append]
      simp only [ih, scan_push, pop_push, completions_scan_snd]

theorem search_eq_scan (m : ClauseMatrix) (trail : Trail) :
    trail.search m = scan m (trail.completions (m.width - trail.signs.size)) trail :=
  searchRemaining_eq_scan m _ trail

/-- A search leaves the stack as it was, whatever it finds. -/
@[simp]
theorem signs_search (m : ClauseMatrix) (trail : Trail) :
    (trail.search m).2.signs = trail.signs := by
  rw [search_eq_scan]
  rfl

theorem checked_search (m : ClauseMatrix) (trail : Trail) :
    (trail.search m).2.checked =
      trail.checked + tried m (trail.completions (m.width - trail.signs.size)) := by
  rw [search_eq_scan]
  rfl

theorem search_fst (m : ClauseMatrix) (trail : Trail) :
    (trail.search m).1 =
      (trail.completions (m.width - trail.signs.size)).any m.satisfiedBy := by
  rw [search_eq_scan]
  rfl

/-- A search finds out whether some completion of its stack satisfies the matrix. -/
theorem search_fst_iff {m : ClauseMatrix} {trail : Trail} :
    (trail.search m).1 = true ↔
      ∃ rest : Assignment, rest.length = m.width - trail.signs.size ∧
        m.satisfiedBy (trail.signs.toList ++ rest) = true := by
  rw [search_fst, List.any_eq_true]
  apply Iff.intro
  · intro found
    obtain ⟨assignment, listed, passes⟩ := found
    obtain ⟨rest, complete, rfl⟩ := mem_completions.mp listed
    exact ⟨rest, complete, passes⟩
  · intro found
    obtain ⟨rest, complete, passes⟩ := found
    exact ⟨trail.signs.toList ++ rest, mem_completions.mpr ⟨rest, complete, rfl⟩, passes⟩

/-- From an empty stack a search finds out whether the matrix is satisfiable. -/
theorem search_fst_iff_of_signs_empty {m : ClauseMatrix} {trail : Trail}
    (unassigned : trail.signs = #[]) : (trail.search m).1 = true ↔ m.Satisfiable := by
  simp [search_fst_iff, unassigned, ClauseMatrix.Satisfiable]

end Trail

/-- The verdict of a backtracker with an empty stack is that on its matrix. -/
theorem Backtracker.solve_eq_satisfiable_iff {backtracker : Backtracker}
    (unassigned : backtracker.trail.signs = #[]) :
    backtracker.solve.1 = .satisfiable ↔ backtracker.matrix.Satisfiable := by
  simp [solve, Trail.search_fst_iff_of_signs_empty, unassigned]

end Clausal
