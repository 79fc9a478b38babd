/-
# Writing expressions

The form in which formulas are shown: every clause in parentheses, no blanks,
numbers without leading zeros. Formulas that no expression can write are shown
too: one without clauses as the empty text, an empty clause as `()`.
-/

import Clausal.Expression.Parser

namespace Clausal

def Variable.write (v : Variable) : List Char :=
  Nat.toDigits 10 v.index

def Literal.write (l : Literal) : List Char :=
  match l.sign with
  | .positive => l.var.write
  | .negative => Expression.negation :: l.var.write

def Clause.write (c : Clause) : List Char :=
  '(' :: [Expression.disjunction].intercalate (c.literals.map Literal.write) ++ [')']

def Formula.write (f : Formula) : List Char :=
  [Expression.conjunction].intercalate (f.clauses.map Clause.write)

instance : ToString Literal where
  toString l := String.ofList l.write

instance : ToString Formula where
  toString f := String.ofList f.write

end Clausal
