/-
# Reading expressions

An expression such as `(1V2)^(~1V~2)` writes a formula: clauses are separated
by `^`, literals within a clause by `V`, and `~` negates. One pair of
parentheses may enclose a clause, and blanks may stand between any two tokens.
Variables are numbered from one.

The reader cuts the text at the separators and then looks at each piece on its
own, so the error reported is always that of the first malformed clause.
-/

import Clausal.Formula.Error
import Clausal.Text.Blank
import Clausal.Text.Decimal

namespace Clausal.Expression

open Text

/-- The sign between two clauses. -/
def conjunction : Char := '^'

/-- The sign between two literals of a clause. -/
def disjunction : Char := 'V'

/-- The sign in front of a negated variable. -/
def negation : Char := '~'

/-- The variable that a run of digits names. Zero names none. -/
def readVariable? (text : List Char) : Option Variable :=
  (digits? text).bind fun n =>
    if inRange : 0 < n ∧ n < UInt64.size then some ⟨n, inRange.2⟩ else none

/-- A literal between two separators, blanks around it and after its negation
sign left out. -/
def readLiteral? (token : List Char) : Option Literal :=
  match trim token with
  | [] => none
  | first :: rest =>
      if first = negation then (readVariable? (trimStart rest)).map Literal.negative
      else (readVariable? (first :: rest)).map Literal.positive

/-- The text within one pair of parentheses, or all of it if there is no pair. -/
def unwrap? (text : List Char) : Option (List Char) :=
  match text with
  | '(' :: rest => if rest.getLast? = some ')' then some rest.dropLast else none
  | _ => if text.getLast? = some ')' then none else some text

/-- The text within the parentheses of a clause, or all of it if it has none.
The text is without blanks at its ends, and a parenthesis inside is refused. -/
def readBody (clause : Nat) (text : List Char) : Except Malformed (List Char) :=
  match unwrap? text with
  | none => .error (.unbalancedParentheses clause)
  | some body =>
      if body.any fun c => c == '(' || c == ')' then .error (.nestedParentheses clause)
      else if body.all isBlank then .error (.emptyClause clause)
      else .ok body

/-- The literals that the body of a clause writes. -/
def readLiterals (clause : Nat) (body : List Char) : Except Malformed (List Literal) :=
  (body.splitOn disjunction).mapM fun token =>
    match readLiteral? token with
    | some l => .ok l
    | none => .error (.invalidLiteral (String.ofList (trim token)) clause)

/-- The clause that one piece of an expression writes. -/
def readClause (clause : Nat) (text : List Char) : Except Malformed Clause :=
  match readBody clause (trim text) with
  | .ok body => (readLiterals clause body).map Clause.mk
  | .error cause => .error cause

/-- The clauses that an expression writes. -/
def readClauses (text : List Char) : Except Malformed (List Clause) :=
  (text.splitOn conjunction).zipIdx.mapM fun (piece, clause) => readClause clause piece

/-- The formula that an expression writes, on the characters of its text. An
expression of blanks alone has its own error, and is not one empty clause. -/
def read (text : List Char) : Except Malformed Formula :=
  if text.all isBlank then .error .emptyExpression
  else (readClauses text).map Formula.mk

/-- The formula that an expression writes. -/
def parse (text : String) : Except Malformed Formula :=
  read text.toList

end Clausal.Expression
