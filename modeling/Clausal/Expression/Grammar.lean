/-
# The grammar of expressions

What it means that a text writes a formula, said by how the text is put
together and without any reading: clauses with `^` between them, a clause bare
or in parentheses, literals with `V` between them, and blanks anywhere but
inside a number.
-/

import Clausal.Expression.Parser

namespace Clausal.Expression

open Text

/-- A run of blanks, which may be empty. -/
def Blanks (text : List Char) : Prop :=
  ∀ c ∈ text, isBlank c = true

/-- A run of digits whose value, not zero, is the number of a variable. -/
structure Names (text : List Char) (v : Variable) : Prop where
  nonempty : text ≠ []
  digits : ∀ c ∈ text, c.isDigit = true
  value : Nat.ofDigitChars 10 text 0 = v.index
  positive : 0 < v.index

/-- A number, or a negation sign and a number. -/
inductive WritesLiteral : List Char → Literal → Prop
  | positive {text : List Char} {v : Variable} (named : Names text v) :
      WritesLiteral text (.positive v)
  | negative {gap text : List Char} {v : Variable} (blank : Blanks gap) (named : Names text v) :
      WritesLiteral (negation :: (gap ++ text)) (.negative v)

/-- Literals with `V` between them, and blanks around each. -/
inductive WritesLiterals : List Char → List Literal → Prop
  | last {before text after : List Char} {l : Literal} (blankBefore : Blanks before)
      (literal : WritesLiteral text l) (blankAfter : Blanks after) :
      WritesLiterals (before ++ text ++ after) [l]
  | next {before text after rest : List Char} {l : Literal} {ls : List Literal}
      (blankBefore : Blanks before) (literal : WritesLiteral text l) (blankAfter : Blanks after)
      (others : WritesLiterals rest ls) :
      WritesLiterals (before ++ text ++ after ++ disjunction :: rest) (l :: ls)

/-- Literals, bare or in parentheses, and blanks around them. -/
inductive WritesClause : List Char → Clause → Prop
  | bare {before text after : List Char} {ls : List Literal} (blankBefore : Blanks before)
      (body : WritesLiterals text ls) (blankAfter : Blanks after) :
      WritesClause (before ++ text ++ after) ⟨ls⟩
  | enclosed {before text after : List Char} {ls : List Literal} (blankBefore : Blanks before)
      (body : WritesLiterals text ls) (blankAfter : Blanks after) :
      WritesClause (before ++ '(' :: (text ++ ')' :: after)) ⟨ls⟩

/-- Clauses with `^` between them. -/
inductive WritesClauses : List Char → List Clause → Prop
  | last {text : List Char} {c : Clause} (clause : WritesClause text c) :
      WritesClauses text [c]
  | next {text rest : List Char} {c : Clause} {cs : List Clause} (clause : WritesClause text c)
      (others : WritesClauses rest cs) :
      WritesClauses (text ++ conjunction :: rest) (c :: cs)

/-- The text writes the formula. -/
def Writes (text : List Char) (f : Formula) : Prop :=
  WritesClauses text f.clauses

end Clausal.Expression
