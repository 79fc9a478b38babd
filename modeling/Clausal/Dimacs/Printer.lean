/-
# Writing DIMACS files

A formula as a file with one clause on each line. The header may declare more
variables than there are, and more clauses.
-/

import Clausal.Expression.Printer

namespace Clausal

/-- A literal as a number, negative if the literal is. -/
def Literal.writeSigned (l : Literal) : List Char :=
  match l.sign with
  | .positive => l.var.write
  | .negative => '-' :: l.var.write

/-- The literals of a clause, and the zero that ends it. -/
def Clause.writeLine (c : Clause) : List Char :=
  c.literals.flatMap (fun l => l.writeSigned ++ [' ']) ++ ['0', '\n']

/-- The header that declares the given numbers, and the clauses after it. -/
def Formula.writeDimacs (f : Formula) (variableCount clauseCount : Nat) : List Char :=
  "p cnf ".toList ++ Nat.toDigits 10 variableCount ++ [' '] ++ Nat.toDigits 10 clauseCount ++
    ['\n'] ++ f.clauses.flatMap Clause.writeLine

end Clausal
