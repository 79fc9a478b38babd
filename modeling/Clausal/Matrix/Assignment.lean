/-
# Assignments in order

All assignments of a number of columns, each of them once, in lexicographic
order with false before true. The place of an assignment in this list is its
reading as a binary number whose first digit is the first column.
-/

import Clausal.Matrix.Basic
import Mathlib.Algebra.Group.Nat.Defs

namespace Clausal.Assignment

/-- All assignments of the given number of columns. -/
def all : Nat → List Assignment
  | 0 => [[]]
  | columns + 1 =>
      (all columns).map (List.cons .negative) ++ (all columns).map (List.cons .positive)

/-- The reading of an assignment as a binary number. -/
def rank (assignment : Assignment) : Nat :=
  assignment.foldl (fun value sign => 2 * value + sign.toBool.toNat) 0

@[simp]
theorem length_all (columns : Nat) : (all columns).length = 2 ^ columns := by
  induction columns with
  | zero => rfl
  | succ columns ih =>
      simp only [all, List.length_append, List.length_map, ih]
      omega

@[simp]
theorem mem_all {columns : Nat} {assignment : Assignment} :
    assignment ∈ all columns ↔ assignment.length = columns := by
  induction columns generalizing assignment with
  | zero => simp [all]
  | succ columns ih =>
      cases assignment with
      | nil => simp [all]
      | cons sign rest => cases sign <;> simp [all, ih]

end Clausal.Assignment
