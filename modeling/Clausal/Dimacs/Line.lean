/-
# Lines of a DIMACS file

A file has comments, one header line `p cnf n m` that declares the numbers of
variables and clauses, and lines of numbers. Each number is a literal, negative
for a negated variable, and zero ends a clause. What kind of line it is depends
on its first word alone.
-/

import Clausal.Formula.Basic
import Clausal.Text.Blank
import Clausal.Text.Decimal
import Clausal.Text.ByteStream

namespace Clausal.Dimacs

open Text

/-- What is wrong with the words of a file. -/
inductive FormatError where
  | duplicateHeader
  | missingFormatName
  | invalidVariableCount
  | invalidClauseCount
  /-- A line of numbers, or the end of the file, comes before any header. -/
  | missingHeader
  /-- A word is no number, or none that fits into 64 bits. -/
  | invalidLiteral (token : String)
  /-- The variable of a literal is above the number declared. -/
  | undeclaredVariable (literal : Int) (declared : Nat)
  /-- The file ends within a clause. -/
  | unterminatedClause
deriving DecidableEq

def FormatError.reason : FormatError → String
  | duplicateHeader => "duplicate 'p' line"
  | missingFormatName => "missing 'cnf'"
  | invalidVariableCount => "invalid num_variables"
  | invalidClauseCount => "invalid num_clauses"
  | missingHeader => "missing 'p' line before clauses"
  | invalidLiteral token => s!"invalid literal '{token}'"
  | undeclaredVariable literal declared =>
      s!"literal {literal} exceeds the declared {declared} variables"
  | unterminatedClause => "last clause is not terminated by 0"

/-- Why a file yields no formula. -/
inductive Error where
  | read (cause : ReadError)
  | format (cause : FormatError)
deriving DecidableEq

def Error.message : Error → String
  | read cause => cause.message
  | format cause => "bad DIMACS input: " ++ cause.reason

/-- The kinds of lines, with the words that matter. -/
inductive Line where
  | comment
  /-- The words after the letter `p`. -/
  | header (fields : List (List Char))
  /-- All words of a line of numbers. -/
  | numbers (tokens : List (List Char))
deriving DecidableEq

/-- A line without words is a comment, too. -/
def Line.ofText (text : List Char) : Line :=
  match words text with
  | [] => .comment
  | first :: rest =>
      if first = ['c'] then .comment
      else if first = ['p'] then .header rest
      else .numbers (first :: rest)

/-- The numbers that a header declares. -/
structure Header where
  variableCount : Nat
  clauseCount : Nat
  variableCount_lt : variableCount < UInt64.size

/-- The words of a header after its first. Further words are ignored. -/
def Header.ofFields (fields : List (List Char)) : Except FormatError Header :=
  if fields.head? = some ['c', 'n', 'f'] then
    match declared : fields[1]?.bind unsigned? with
    | none => .error .invalidVariableCount
    | some variableCount =>
        match fields[2]?.bind unsigned? with
        | none => .error .invalidClauseCount
        | some clauseCount =>
            .ok {
              variableCount, clauseCount
              variableCount_lt := by
                obtain ⟨_, _, written⟩ := Option.bind_eq_some_iff.mp declared
                exact lt_of_unsigned? written }
  else .error .missingFormatName

/-- One number of a file: a literal, or nothing for the zero that ends a
clause. -/
def readEntry (header : Header) (token : List Char) : Except FormatError (Option Literal) :=
  match signed? token with
  | none => .error (.invalidLiteral (String.ofList token))
  | some value =>
      if declared : value.natAbs ≤ header.variableCount then
        let v : Variable := ⟨value.natAbs, Nat.lt_of_le_of_lt declared header.variableCount_lt⟩
        if value = 0 then .ok none
        else .ok (some (if 0 < value then .positive v else .negative v))
      else .error (.undeclaredVariable value header.variableCount)

end Clausal.Dimacs
