/-
# Backtracking

Go through all assignments depth first, false before true, and check each
complete one against all rows. The search stops at the first assignment that
passes. It keeps the signs chosen so far on a stack, which it restores on every
way out, so that after a search the stack is what it was before.
-/

import Clausal.Matrix.Basic
import Clausal.Verdict

namespace Clausal

/-- The state of a search: the signs chosen so far, how many complete
assignments have been checked, and those that passed. -/
structure Trail where
  signs : Array Sign
  checked : Nat
  accepted : List Assignment
deriving DecidableEq

namespace Trail

/-- Nothing is chosen and nothing is checked. -/
def empty : Trail := ⟨#[], 0, []⟩

def push (trail : Trail) (sign : Sign) : Trail :=
  { trail with signs := trail.signs.push sign }

/-- Take back the last choice. -/
def pop (trail : Trail) : Trail :=
  { trail with signs := trail.signs.pop }

/-- Check the signs chosen so far as a complete assignment. -/
def check (m : ClauseMatrix) (trail : Trail) : Bool × Trail :=
  let assignment := trail.signs.toList
  if m.satisfiedBy assignment then
    (true, { trail with
      checked := trail.checked + 1, accepted := trail.accepted ++ [assignment] })
  else
    (false, { trail with checked := trail.checked + 1 })

/-- Choose signs for the remaining columns until an assignment passes. -/
def searchRemaining (m : ClauseMatrix) : (remaining : Nat) → Trail → Bool × Trail
  | 0, trail => trail.check m
  | remaining + 1, trail =>
      let (found, trail) := searchRemaining m remaining (trail.push .negative)
      let trail := trail.pop
      if found then (true, trail)
      else
        let (found, trail) := searchRemaining m remaining (trail.push .positive)
        (found, trail.pop)

/-- Choose signs for the columns that have none yet. -/
def search (m : ClauseMatrix) (trail : Trail) : Bool × Trail :=
  searchRemaining m (m.width - trail.signs.size) trail

end Trail

/-- A matrix to be decided by backtracking, with the state in which the last
search left it. -/
structure Backtracker where
  matrix : ClauseMatrix
  trail : Trail
deriving DecidableEq

namespace Backtracker

/-- No search has been made yet. -/
def new (m : ClauseMatrix) : Backtracker := ⟨m, .empty⟩

/-- Complete assignments checked by the last search. -/
def assignments (backtracker : Backtracker) : Nat :=
  backtracker.trail.checked

/-- A new search on the stack as it is, counted from zero. -/
def solve (backtracker : Backtracker) : Verdict × Backtracker :=
  let start := { backtracker.trail with checked := 0, accepted := [] }
  let (found, trail) := start.search backtracker.matrix
  (Verdict.ofBool found, { backtracker with trail })

end Backtracker

end Clausal
