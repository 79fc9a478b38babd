/-
# From formulas to matrices

A clause becomes a row by writing its literals one after another into a row of
absent cells. Repetitions change nothing. A literal whose complement stands in
the row already makes the clause a tautology, and a cell has no room for both
signs: the policy says whether that is an error, or whether the clause, which
excludes no assignment, is left out of the matrix.

A clause that will be left out is still read to its end, since each of its
variables must have a column.
-/

import Clausal.Matrix.Basic

namespace Clausal

/-- What to do with a clause that holds a literal and its complement. -/
inductive TautologyPolicy where
  /-- Refuse the formula. -/
  | reject
  /-- Leave the clause out of the matrix. -/
  | drop
deriving DecidableEq, Repr

/-- A row in the making: the literals written so far, and whether the
complement of one of them has been met. -/
@[ext]
structure Draft (width : Nat) where
  cells : Row
  length_cells : cells.length = width
  tautological : Bool

namespace Draft

/-- The row of the empty clause. -/
def empty (width : Nat) : Draft width where
  cells := List.replicate width none
  length_cells := List.length_replicate
  tautological := false

/-- Write one literal of a clause. The first of two complementary literals
keeps the cell. -/
def put (columns : List Variable) (policy : TautologyPolicy) (clause : Nat)
    {width : Nat} (draft : Draft width) (l : Literal) : Except FormulaError (Draft width) :=
  match columns.idxOf? l.var with
  | none => .error (.malformed (.outsideColumns clause l.var))
  | some column =>
      match draft.cells[column]?.join with
      | none =>
          .ok { draft with
            cells := draft.cells.set column (some l.sign)
            length_cells := List.length_set.trans draft.length_cells }
      | some sign =>
          if sign = l.sign then .ok draft
          else match policy with
            | .reject => .error (.inconsistentClause clause l.var)
            | .drop => .ok { draft with tautological := true }

/-- The draft of a whole clause. -/
def ofClause (columns : List Variable) (policy : TautologyPolicy) (clause : Nat) (c : Clause) :
    Except FormulaError (Draft columns.length) :=
  c.literals.foldlM (put columns policy clause) (empty columns.length)

end Draft

/-- What comes of encoding a formula: the matrix or the first fault, and the
clauses that had been left out until then. -/
structure Encoding where
  dropped : List Nat
  result : Except FormulaError ClauseMatrix

namespace ClauseMatrix

/-- The rows of all drafts but those of tautologies. -/
def ofDrafts {width : Nat} (drafts : List (Draft width)) : ClauseMatrix where
  width := width
  rows := (drafts.filter fun draft => !draft.tautological).map Draft.cells
  length_row := by
    intro row present
    obtain ⟨draft, _, rfl⟩ := List.mem_map.mp present
    exact draft.length_cells

end ClauseMatrix

namespace Encoding

/-- The drafts of a formula's clauses, each with the number of its clause. -/
def drafts (columns : List Variable) (f : Formula) (policy : TautologyPolicy) :
    List (Except FormulaError (Draft columns.length)) :=
  f.clauses.zipIdx.map fun (c, clause) => Draft.ofClause columns policy clause c

/-- The numbers of the tautological drafts before the first fault. -/
def droppedOf {width : Nat} (drafts : List (Except FormulaError (Draft width))) : List Nat :=
  (drafts.zipIdx.takeWhile fun (draft, _) => draft.isOk).filterMap fun
    | (.ok draft, clause) => if draft.tautological then some clause else none
    | (.error _, _) => none

/-- Encode a formula against the columns of a matrix, which must be given in
strictly ascending order. -/
def ofFormula (columns : List Variable) (f : Formula) (policy : TautologyPolicy) : Encoding :=
  if Variable.ascending columns then
    let drafts := drafts columns f policy
    { dropped := droppedOf drafts
      result := (drafts.mapM id).map ClauseMatrix.ofDrafts }
  else
    { dropped := []
      result := .error (.malformed .columnsNotAscending) }

end Encoding

namespace ClauseMatrix

/-- The matrix of a formula against given columns. -/
def encode (columns : List Variable) (f : Formula) (policy : TautologyPolicy) :
    Except FormulaError ClauseMatrix :=
  (Encoding.ofFormula columns f policy).result

/-- The matrix of a formula against its own variables. -/
def ofFormula (f : Formula) (policy : TautologyPolicy) : Except FormulaError ClauseMatrix :=
  encode f.vars f policy

end ClauseMatrix

end Clausal
