/-
# What can be wrong with a formula

The faults of a written formula and of its clause matrix, as causes. The
wording of each is fixed in one place, and clauses, rows and columns are
counted from zero throughout.
-/

import Clausal.Formula.Basic

namespace Clausal

/-- The ways in which an expression, or the matrix asked for, is ill-formed. -/
inductive Malformed where
  /-- Nothing but blanks was written. -/
  | emptyExpression
  /-- A clause opens a parenthesis without closing it, or the reverse. -/
  | unbalancedParentheses (clause : Nat)
  /-- A parenthesis stands inside a clause. -/
  | nestedParentheses (clause : Nat)
  /-- A clause holds nothing but blanks. -/
  | emptyClause (clause : Nat)
  /-- A token is no literal: its digits are missing, foreign, zero or too many. -/
  | invalidLiteral (token : String) (clause : Nat)
  /-- The columns asked for are not in strictly ascending order. -/
  | columnsNotAscending
  /-- A clause has a variable for which there is no column. -/
  | outsideColumns (clause : Nat) (var : Variable)
  /-- A row has not as many cells as the matrix has columns. -/
  | raggedRow (row cells width : Nat)
deriving DecidableEq

/-- The reason that follows the words "malformed expression". -/
def Malformed.reason : Malformed → String
  | emptyExpression => "empty expression"
  | unbalancedParentheses clause => s!"unbalanced parentheses in clause {clause}"
  | nestedParentheses clause => s!"nested parentheses in clause {clause}"
  | emptyClause clause => s!"clause {clause} is empty"
  | invalidLiteral token clause => s!"invalid literal '{token}' in clause {clause}"
  | columnsNotAscending => "literal universe is not strictly ascending"
  | outsideColumns clause var =>
      s!"clause {clause} mentions {var}, which is outside the literal universe"
  | raggedRow row cells width => s!"row {row} has {cells} columns, expected {width}"

/-- Why a formula has no clause matrix. -/
inductive FormulaError where
  | malformed (cause : Malformed)
  /-- A clause mentions the variable both negated and unnegated. -/
  | inconsistentClause (clause : Nat) (var : Variable)
deriving DecidableEq

def FormulaError.message : FormulaError → String
  | malformed cause => "malformed expression: " ++ cause.reason
  | inconsistentClause clause var => s!"clause {clause} contains both {var} and ~{var}"

end Clausal
