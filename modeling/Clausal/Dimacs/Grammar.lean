/-
# What the lines of a DIMACS file write

What it means that the lines of a file write a formula, said about all lines at once
and without reading one after another: which lines count at all, what each of them
must be, and how the words on the lines of numbers fall into clauses. A line that is
no text cannot be told to be of any kind, but it is a fault only if it counts.
-/

import Clausal.Dimacs.Reader
import Clausal.Text.Numeral
import Mathlib.Algebra.Group.Int.Defs
import Mathlib.Algebra.Group.Nat.Defs
import Mathlib.Data.List.Infix

namespace Clausal.Dimacs

open Text

/-- The line is a text. -/
def Readable (line : LineRead) : Prop :=
  ∃ text, line = .ok text

/-- The words of a line. A line that is no text has none. -/
def wordsOf : LineRead → List (List Char)
  | .ok text => words text.toList
  | .error _ => []

/-- The line has no words, or the first of them is the letter `c`. -/
def IsComment (line : LineRead) : Prop :=
  (wordsOf line).head? = none ∨ (wordsOf line).head? = some ['c']

/-- The first word of the line is the letter `p`. -/
def IsHeader (line : LineRead) : Prop :=
  (wordsOf line).head? = some ['p']

/-- The line begins with any other word. -/
def IsNumbers (line : LineRead) : Prop :=
  ¬ IsComment line ∧ ¬ IsHeader line

instance : DecidablePred IsNumbers := fun line =>
  inferInstanceAs (Decidable (¬ ((wordsOf line).head? = none ∨ (wordsOf line).head? = some ['c']) ∧
    ¬ (wordsOf line).head? = some ['p']))

/-- The words on all lines of numbers, one line after another. -/
def numberWords (lines : List LineRead) : List (List Char) :=
  (lines.filter fun line => IsNumbers line).flatMap wordsOf

/-- The words between one zero and the next. The last segment is not ended by a
zero. -/
def segments (numbers : List (List Char)) : List (List (List Char)) :=
  numbers.splitOnP fun word => WritesInteger word 0

/-- The clauses that are ended by a zero. Two zeros in a row make no clause. -/
def closedSegments (numbers : List (List Char)) : List (List (List Char)) :=
  (segments numbers).dropLast.filter fun segment => !segment.isEmpty

/-- The lines end with one of numbers and hold as many clauses as are declared. -/
def Stops (clauseCount : Nat) (lines : List LineRead) : Prop :=
  (∃ line ∈ lines.getLast?, IsNumbers line) ∧
    clauseCount ≤ (closedSegments (numberWords lines)).length

instance (clauseCount : Nat) : DecidablePred (Stops clauseCount) := fun lines =>
  inferInstanceAs (Decidable ((∃ line ∈ lines.getLast?, IsNumbers line) ∧
    clauseCount ≤ (closedSegments (numberWords lines)).length))

/-- The lines that count: the shortest beginning of the file that holds as many
clauses as are declared, or all lines if there is none. -/
def readPart (clauseCount : Nat) (lines : List LineRead) : List LineRead :=
  (lines.inits.find? fun part => Stops clauseCount part).getD lines

/-- The header declares the two numbers. Further words may follow them. -/
def Declares (header : LineRead) (variableCount clauseCount : Nat) : Prop :=
  ∃ variableWord clauseWord further,
    wordsOf header = ['p'] :: ['c', 'n', 'f'] :: variableWord :: clauseWord :: further ∧
      WritesNatural variableWord variableCount ∧ variableCount < 2 ^ 64 ∧
      WritesNatural clauseWord clauseCount ∧ clauseCount < 2 ^ 64

/-- The number of the variable, negative if the literal is. -/
inductive WritesLiteral : List Char → Literal → Prop
  | positive {word : List Char} {v : Variable} (written : WritesInteger word v.index)
      (named : 0 < v.index) : WritesLiteral word (.positive v)
  | negative {word : List Char} {v : Variable} (written : WritesInteger word (-v.index))
      (named : 0 < v.index) : WritesLiteral word (.negative v)

/-- Each word writes a literal. -/
def WritesClause (segment : List (List Char)) (c : Clause) : Prop :=
  List.Forall₂ WritesLiteral segment c.literals

/-- The word writes a number that fits into 64 bits, of a variable that is not above the
number declared. -/
def Bounded (variableCount : Nat) (word : List Char) : Prop :=
  ∃ z : Int, WritesInteger word z ∧ -2 ^ 63 ≤ z ∧ z < 2 ^ 63 ∧ z.natAbs ≤ variableCount

/-- The words of all lines of numbers write the clauses of the formula. -/
structure WritesNumbers (variableCount : Nat) (numbers : List (List Char)) (f : Formula) :
    Prop where
  bounded : ∀ word ∈ numbers, Bounded variableCount word
  /-- The last clause is not left open. -/
  closed : ∀ word ∈ numbers.getLast?, WritesInteger word 0
  clauses : List.Forall₂ WritesClause
    ((segments numbers).filter fun segment => !segment.isEmpty) f.clauses

/-- The lines that count write the formula, if they declare these numbers. -/
structure WritesDeclared (variableCount clauseCount : Nat) (part : List LineRead)
    (f : Formula) : Prop where
  readable : ∀ line ∈ part, Readable line
  /-- There is one header, and only comments come before it. -/
  declared : ∃ before header after, part = before ++ header :: after ∧
    (∀ line ∈ before, IsComment line) ∧ Declares header variableCount clauseCount ∧
      ∀ line ∈ after, ¬ IsHeader line
  numbers : WritesNumbers variableCount (numberWords part) f

/-- The lines of a file write the formula. -/
def Writes (lines : List LineRead) (f : Formula) : Prop :=
  ∃ variableCount clauseCount,
    WritesDeclared variableCount clauseCount (readPart clauseCount lines) f

end Clausal.Dimacs
