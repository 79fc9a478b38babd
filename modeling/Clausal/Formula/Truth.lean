/-
# Truth of formulas

What a formula means, without regard to how it is decided: a valuation gives
each variable a truth value, and the value of a formula follows from those of
its literals. The decision procedures are all measured against this.
-/

import Clausal.Formula.Basic

namespace Clausal

/-- A choice of truth values for all variables. -/
abbrev Valuation := Variable → Bool

/-- A literal is true when its variable has the value its sign asks for. -/
def Literal.eval (l : Literal) (valuation : Valuation) : Bool :=
  valuation l.var == l.sign.toBool

/-- A clause is true when one of its literals is. -/
def Clause.eval (c : Clause) (valuation : Valuation) : Bool :=
  c.literals.any (·.eval valuation)

/-- A formula is true when all of its clauses are. -/
def Formula.eval (f : Formula) (valuation : Valuation) : Bool :=
  f.clauses.all (·.eval valuation)

/-- Some valuation makes the formula true. -/
def Formula.Satisfiable (f : Formula) : Prop :=
  ∃ valuation : Valuation, f.eval valuation = true

end Clausal
