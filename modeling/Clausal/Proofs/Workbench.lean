/-
# Searches that are asked again

Two searches on one matrix, one of each kind, may be asked in any order and as often
as one likes, for a verdict or only for the count of the last search. A split keeps
nothing but its count. A search by backtracking keeps a stack as well, but it leaves
the stack as it found it and sets its records back before it starts.

So whatever has been asked before, each search is either as it was made or as its
first run has left it, and it answers accordingly. What is asked of one is nothing to
the other.
-/

import Clausal.Proofs.Search.Backtracking
import Clausal.Workbench

namespace Clausal

namespace Splitter

theorem solve_solve (splitter : Splitter) : splitter.solve.2.solve = splitter.solve :=
  rfl

variable (m : ClauseMatrix) (asked : Prop) [Decidable asked]

/-- A splitter as it was made or, once it has been asked, as its first run has left it. -/
def onceAsked : Splitter :=
  if asked then (new m).solve.2 else new m

@[simp]
theorem matrix_onceAsked : (onceAsked m asked).matrix = m := by
  rw [onceAsked]
  split <;> rfl

/-- The counter starts at zero. -/
@[simp]
theorem nodes_onceAsked :
    (onceAsked m asked).nodes = if asked then (new m).solve.2.nodes else 0 :=
  apply_ite nodes ..

@[simp]
theorem solve_onceAsked : (onceAsked m asked).solve = (new m).solve := by
  rw [onceAsked]
  split
  · exact solve_solve _
  · rfl

end Splitter

namespace Backtracker

/-- The stack is as it was, whether or not the search has found anything. -/
theorem signs_solve (backtracker : Backtracker) :
    backtracker.solve.2.trail.signs = backtracker.trail.signs := by
  simp [solve]

/-- Of what a backtracker remembers, only the stack has an influence on a search. -/
theorem solve_eq_of_signs_eq {first second : Backtracker}
    (sameMatrix : first.matrix = second.matrix)
    (sameSigns : first.trail.signs = second.trail.signs) : first.solve = second.solve := by
  simp only [solve, sameMatrix, sameSigns]

theorem solve_solve (backtracker : Backtracker) :
    backtracker.solve.2.solve = backtracker.solve :=
  solve_eq_of_signs_eq rfl backtracker.signs_solve

variable (m : ClauseMatrix) (asked : Prop) [Decidable asked]

/-- A backtracker as it was made or, once it has been asked, as its first run has left
it. -/
def onceAsked : Backtracker :=
  if asked then (new m).solve.2 else new m

@[simp]
theorem matrix_onceAsked : (onceAsked m asked).matrix = m := by
  rw [onceAsked]
  split <;> rfl

@[simp]
theorem signs_onceAsked : (onceAsked m asked).trail.signs = #[] := by
  rw [onceAsked]
  split
  · exact signs_solve _
  · rfl

/-- The counter starts at zero. -/
@[simp]
theorem assignments_onceAsked :
    (onceAsked m asked).assignments = if asked then (new m).solve.2.assignments else 0 :=
  apply_ite assignments ..

@[simp]
theorem solve_onceAsked : (onceAsked m asked).solve = (new m).solve := by
  rw [onceAsked]
  split
  · exact solve_solve _
  · rfl

end Backtracker

/-- What can be asked of two searches on one matrix. -/
inductive SearchCall where
  /-- A verdict, and with it the count of this search. -/
  | solve (procedure : Procedure)
  /-- The count of the last search. -/
  | count (procedure : Procedure)
deriving DecidableEq

namespace SearchCall

/-- The one of the two searches that is asked. -/
def procedure : SearchCall → Procedure
  | solve procedure => procedure
  | count procedure => procedure

/-- A call to one search is no run of the other. -/
theorem solve_mem_append_iff {before : List SearchCall} {call : SearchCall}
    {procedure : Procedure} (other : call.procedure ≠ procedure) :
    .solve procedure ∈ before ++ [call] ↔ .solve procedure ∈ before := by
  have different : .solve procedure ≠ call := by
    rintro rfl
    exact other rfl
  simp [different]

/-- The step that asks it. -/
def step : SearchCall → Workbench.Step
  | solve .splitting => .split
  | solve .backtracking => .backtrack
  | count .splitting => .showNodes
  | count .backtracking => .showAssignments

/-- The answer when some calls have been made before: to a search that of a new one,
and to the question for a count that of a new search, or zero before the first. -/
def answer (m : ClauseMatrix) (before : List SearchCall) : SearchCall → Workbench.Reply
  | solve .splitting =>
      .splitResult (Splitter.new m).solve.1 (Splitter.new m).solve.2.nodes
  | solve .backtracking =>
      .backtrackResult (Backtracker.new m).solve.1 (Backtracker.new m).solve.2.assignments
  | count .splitting =>
      .count (if .solve .splitting ∈ before then (Splitter.new m).solve.2.nodes else 0)
  | count .backtracking =>
      .count (if .solve .backtracking ∈ before then (Backtracker.new m).solve.2.assignments else 0)

end SearchCall

namespace Workbench

@[simp]
theorem length_run (bench : Workbench) (steps : List Step) :
    (bench.run steps).length = steps.length := by
  induction steps generalizing bench with
  | nil => rfl
  | cons s rest ih => rw [run, List.length_cons, ih, List.length_cons]

/-- What comes later is done on the workbench as the earlier steps have left it. -/
theorem run_append (bench : Workbench) (first second : List Step) :
    bench.run (first ++ second) = bench.run first ++ (first.foldl after bench).run second := by
  induction first generalizing bench with
  | nil => rfl
  | cons s rest ih => rw [List.cons_append, run, run, ih, List.cons_append, List.foldl_cons]

theorem getElem?_run (bench : Workbench) (before after : List Step) (s : Step) :
    (bench.run (before ++ s :: after))[before.length]? =
      some (((before.foldl Workbench.after bench).step s).map Prod.fst,
        (before.foldl Workbench.after bench).events s) := by
  rw [run_append, List.getElem?_append_right (Nat.le_of_eq (length_run bench before)),
    length_run, Nat.sub_self]
  rfl

section searches

variable {bench : Workbench} {splitter : Splitter} {backtracker : Backtracker}

theorem step_split (made : bench.splitter = some splitter) :
    bench.step .split =
      .ok (.splitResult splitter.solve.1 splitter.solve.2.nodes,
        { bench with splitter := some splitter.solve.2 }) := by
  rw [step, made]
  rfl

theorem step_backtrack (made : bench.backtracker = some backtracker) :
    bench.step .backtrack =
      .ok (.backtrackResult backtracker.solve.1 backtracker.solve.2.assignments,
        { bench with backtracker := some backtracker.solve.2 }) := by
  rw [step, made]
  rfl

theorem step_showNodes (made : bench.splitter = some splitter) :
    bench.step .showNodes = .ok (.count splitter.nodes, bench) := by
  rw [step, made]
  rfl

theorem step_showAssignments (made : bench.backtracker = some backtracker) :
    bench.step .showAssignments = .ok (.count backtracker.assignments, bench) := by
  rw [step, made]
  rfl

end searches

/-- The workbench with two searches on one matrix of which some things have been
asked. -/
def asked (bench : Workbench) (m : ClauseMatrix) (calls : List SearchCall) : Workbench :=
  { bench with
    matrix := some m
    splitter := some (.onceAsked m (.solve .splitting ∈ calls))
    backtracker := some (.onceAsked m (.solve .backtracking ∈ calls)) }

variable (bench : Workbench) (m : ClauseMatrix)

/-- One call more: its answer, and what has been asked then. -/
theorem step_asked (before : List SearchCall) (call : SearchCall) :
    (bench.asked m before).step call.step =
      .ok (call.answer m before, bench.asked m (before ++ [call])) := by
  rcases call with ⟨procedure⟩ | ⟨procedure⟩ <;> cases procedure
  · rw [SearchCall.step, step_split rfl, Splitter.solve_onceAsked]
    simp [asked, SearchCall.answer, Splitter.onceAsked]
  · rw [SearchCall.step, step_backtrack rfl, Backtracker.solve_onceAsked]
    simp [asked, SearchCall.answer, Backtracker.onceAsked]
  · rw [SearchCall.step, step_showNodes rfl]
    simp [asked, SearchCall.answer]
  · rw [SearchCall.step, step_showAssignments rfl]
    simp [asked, SearchCall.answer]

/-- The workbench after some calls more. -/
theorem foldl_after_asked (before calls : List SearchCall) :
    (calls.map SearchCall.step).foldl after (bench.asked m before) =
      bench.asked m (before ++ calls) := by
  induction calls generalizing before with
  | nil => rw [List.append_nil, List.map_nil, List.foldl_nil]
  | cons call calls ih =>
      have called : (bench.asked m before).after call.step = bench.asked m (before ++ [call]) := by
        rw [after, step_asked]
      rw [List.map_cons, List.foldl_cons, called, ih, List.append_assoc, List.singleton_append]

/-- Two searches on one matrix, asked in any order: each answers as a new one would,
the counts are zero until the first search, the stack is empty after every call, and
a call to one of them leaves the other and the matrix alone. -/
theorem searches_repeat_without_interference (before after : List SearchCall)
    (call : SearchCall) :
    let start := { bench with
      matrix := some m
      splitter := some (.new m)
      backtracker := some (.new m) }
    let here := (before.map SearchCall.step).foldl Workbench.after start
    let next := here.after call.step
    ((start.run ((before ++ call :: after).map SearchCall.step))[before.length]?.map Prod.fst =
        some (.ok (call.answer m before))) ∧
      (∃ splitter, here.splitter = some splitter ∧ splitter.matrix = m ∧
        splitter.nodes =
          if .solve .splitting ∈ before then (Splitter.new m).solve.2.nodes else 0) ∧
      (∃ backtracker, here.backtracker = some backtracker ∧ backtracker.matrix = m ∧
        backtracker.trail.signs = #[] ∧
        backtracker.assignments =
          if .solve .backtracking ∈ before then (Backtracker.new m).solve.2.assignments else 0) ∧
      here.matrix = some m ∧ next.matrix = some m ∧
      (call.procedure = .splitting → next.backtracker = here.backtracker) ∧
      (call.procedure = .backtracking → next.splitter = here.splitter) := by
  intro start here next
  have fresh : start = bench.asked m [] := rfl
  have reached : here = bench.asked m before := by
    simp only [here, fresh, foldl_after_asked, List.nil_append]
  have called : next = bench.asked m (before ++ [call]) := by
    simp only [next, reached, Workbench.after, step_asked]
  rw [called, reached]
  refine ⟨?_, ⟨_, rfl, by simp⟩, ⟨_, rfl, by simp⟩, rfl, rfl, ?_, ?_⟩
  · rw [List.map_append, List.map_cons, ← List.length_map SearchCall.step, getElem?_run,
      fresh, foldl_after_asked, step_asked]
    rfl
  · intro splitting
    have other : call.procedure ≠ .backtracking := by simp [splitting]
    simp only [asked, SearchCall.solve_mem_append_iff other]
  · intro backtracking
    have other : call.procedure ≠ .splitting := by simp [backtracking]
    simp only [asked, SearchCall.solve_mem_append_iff other]

end Workbench

end Clausal
