/-
# The workbench

A formula, a matrix and two searches to experiment with. Each step works on
what lies there, and a step that fails changes nothing. The searches keep the
matrix they were made for when another one takes its place.
-/

import Clausal.Log.Account
import Clausal.Search.Enumeration

namespace Clausal

/-- A formula as it is, or written in some format. -/
inductive FormulaSource where
  | given (f : Formula)
  | written (format : InputFormat) (text : String)
deriving DecidableEq

namespace FormulaSource

def read : FormulaSource → Except SolveError Formula
  | given f => .ok f
  | written format text => format.parse text

def events : FormulaSource → List Event
  | given _ => []
  | written format text => format.parseEvents text

end FormulaSource

/-- What lies on the workbench. -/
structure Workbench where
  formula : Option Formula := none
  matrix : Option ClauseMatrix := none
  savedFormula : Option Formula := none
  savedMatrix : Option ClauseMatrix := none
  splitter : Option Splitter := none
  backtracker : Option Backtracker := none
deriving DecidableEq

namespace Workbench

inductive Step where
  | takeFormula (source : FormulaSource)
  /-- Encode the formula, against its own variables unless others are given. -/
  | encode (columns : Option (List Variable)) (policy : TautologyPolicy)
  | takeMatrix (width : Nat) (rows : List Row)
  | showRows
  /-- Remember the formula and the matrix. -/
  | save
  /-- Compare the formula and the matrix with those remembered. -/
  | compare
  | newSplitter
  | newBacktracker
  | split
  | backtrack
  | showNodes
  | showAssignments
  | enumerate
deriving DecidableEq

inductive Reply where
  | formula (f : Formula)
  | matrix (m : ClauseMatrix)
  | rows (m : ClauseMatrix)
  | saved
  | same (formula matrix : Bool)
  | made
  | splitResult (verdict : Verdict) (nodes : Nat)
  | backtrackResult (verdict : Verdict) (assignments : Nat)
  | count (n : Nat)
  | verdict (verdict : Verdict)
deriving DecidableEq

/-- The things that a step may find missing. -/
inductive Item where
  | formula
  | matrix
  | splitter
  | backtracker
deriving DecidableEq

def Item.name : Item → String
  | formula => "formula"
  | matrix => "matrix"
  | splitter => "bdd"
  | backtracker => "backtrack"

inductive StepError where
  | missing (item : Item)
  | solve (cause : SolveError)
  | tooManyVariables (cause : TooManyVariables)
deriving DecidableEq

def StepError.message : StepError → String
  | missing item => item.name
  | solve cause => cause.message
  | tooManyVariables cause => cause.message

/-- Demand that a thing is there. -/
def require {α : Type} (item : Item) : Option α → Except StepError α
  | some a => .ok a
  | none => .error (.missing item)

/-- One step: what it answers, and what lies on the workbench after it. -/
def step (bench : Workbench) : Step → Except StepError (Reply × Workbench)
  | .takeFormula source => do
      let f ← source.read.mapError .solve
      return (.formula f, { bench with formula := some f })
  | .encode columns policy => do
      let f ← require .formula bench.formula
      let m ← (ClauseMatrix.encode (columns.getD f.vars) f policy).mapError
        fun cause => .solve (.formula cause)
      return (.matrix m, { bench with matrix := some m })
  | .takeMatrix width rows => do
      let m ← (ClauseMatrix.ofRows width rows).mapError
        fun cause => .solve (.formula (.malformed cause))
      return (.matrix m, { bench with matrix := some m })
  | .showRows => do
      let m ← require .matrix bench.matrix
      return (.rows m, bench)
  | .save =>
      return (.saved, { bench with savedFormula := bench.formula, savedMatrix := bench.matrix })
  | .compare =>
      return (.same (bench.formula == bench.savedFormula) (bench.matrix == bench.savedMatrix),
        bench)
  | .newSplitter => do
      let m ← require .matrix bench.matrix
      return (.made, { bench with splitter := some (.new m) })
  | .newBacktracker => do
      let m ← require .matrix bench.matrix
      return (.made, { bench with backtracker := some (.new m) })
  | .split => do
      let splitter ← require .splitter bench.splitter
      let (verdict, splitter) := splitter.solve
      return (.splitResult verdict splitter.nodes, { bench with splitter := some splitter })
  | .backtrack => do
      let backtracker ← require .backtracker bench.backtracker
      let (verdict, backtracker) := backtracker.solve
      return (.backtrackResult verdict backtracker.assignments,
        { bench with backtracker := some backtracker })
  | .showNodes => do
      let splitter ← require .splitter bench.splitter
      return (.count splitter.nodes, bench)
  | .showAssignments => do
      let backtracker ← require .backtracker bench.backtracker
      return (.count backtracker.assignments, bench)
  | .enumerate => do
      let f ← require .formula bench.formula
      let verdict ← f.enumerate.mapError .tooManyVariables
      return (.verdict verdict, bench)

/-- The workbench after a step, which is as before if the step fails. -/
def after (bench : Workbench) (s : Step) : Workbench :=
  match bench.step s with
  | .ok (_, bench) => bench
  | .error _ => bench

/-- The events of a step. -/
def events (bench : Workbench) : Step → List Event
  | .takeFormula source => source.events
  | .encode columns policy =>
      match bench.formula with
      | some f => (Encoding.ofFormula (columns.getD f.vars) f policy).events
      | none => []
  | .split =>
      match bench.splitter with
      | some splitter => splitter.matrix.splitEvents
      | none => []
  | .backtrack =>
      match bench.backtracker with
      | some backtracker => backtracker.matrix.searchEvents
      | none => []
  | _ => []

/-- The answers to a sequence of steps, each with its events. -/
def run (bench : Workbench) : List Step → List (Except StepError Reply × List Event)
  | [] => []
  | s :: rest =>
      ((bench.step s).map Prod.fst, bench.events s) :: (bench.after s).run rest

end Workbench

end Clausal
