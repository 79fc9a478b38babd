/-
# Joined expressions

Two expressions with `^` between them are read as the one and then the other. The
clauses are those of both, in order. A fault of the first part is the fault of the
whole, and a fault of the second part counts only when the first has none; its clause
number then goes up by the number of clauses before it.

A part of blanks is the one exception. Alone it is an expression without anything,
which is a fault of its own, and beside `^` it is a clause without anything.
-/

import Clausal.Proofs.Expression.Acceptance
import Clausal.Proofs.Fault

namespace Clausal

namespace Malformed

/-- The same fault with as many more clauses in front. -/
def raise (count : Nat) : Malformed → Malformed
  | emptyExpression => emptyExpression
  | unbalancedParentheses clause => unbalancedParentheses (count + clause)
  | nestedParentheses clause => nestedParentheses (count + clause)
  | emptyClause clause => emptyClause (count + clause)
  | invalidLiteral token clause => invalidLiteral token (count + clause)
  | columnsNotAscending => columnsNotAscending
  | outsideColumns clause var => outsideColumns (count + clause) var
  | raggedRow row cells width => raggedRow row cells width

end Malformed

namespace Expression

open Text

section traversal

variable {ε ε' α β : Type}

end traversal

section clause

variable (count clause : Nat)

variable {clause : Nat} {text body : List Char} {cause : Malformed}

end clause

section piece

variable {clause : Nat} {piece : List Char} {cause : Malformed}

/-- The clause that a piece writes, which has no literals if it writes none. -/
def clauseOf (piece : List Char) : Clause :=
  (readClause 0 piece).toOption.getD ⟨[]⟩

end piece

section joined

variable {text : List Char} {cause : Malformed}

/-- The clauses that a text writes, one for each piece between separators. -/
def clausesOf (text : List Char) : List Clause :=
  (text.splitOn conjunction).map clauseOf

end joined

/-- A part of blanks is an empty clause at its place, and no fault of an earlier part is hidden
by one of a later part. -/
example :
    parse ("1^2" ++ "^" ++ " ") = .error (.emptyClause 2) ∧
      parse ("1^(2" ++ "^" ++ " ") = .error (.unbalancedParentheses 1) := by
  decide +kernel

end Expression

end Clausal
