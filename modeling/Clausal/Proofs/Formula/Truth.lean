/-
# Truth, clause by clause

The value of a formula said through its literals, and what it depends on: only
the values of the variables that the formula mentions. A clause with a
complementary pair is true under every valuation, so leaving it out changes
nothing.
-/

import Clausal.Formula.Truth

namespace Clausal

theorem Literal.eval_iff {l : Literal} {valuation : Valuation} :
    l.eval valuation = true ↔ valuation l.var = l.sign.toBool := by
  simp [eval]

/-- Of two complementary literals one is true. -/
theorem Literal.eval_complement (l : Literal) (valuation : Valuation) :
    l.complement.eval valuation = !l.eval valuation := by
  obtain ⟨sign, v⟩ := l
  cases sign <;> cases valuation v <;> simp_all [eval, complement, Sign.opposite, Sign.toBool]

namespace Clause

theorem eval_iff {c : Clause} {valuation : Valuation} :
    c.eval valuation = true ↔ ∃ l ∈ c.literals, l.eval valuation = true := by
  simp [eval]

theorem isTautological_iff {c : Clause} :
    c.isTautological = true ↔ ∃ l ∈ c.literals, l.complement ∈ c.literals := by
  simp [isTautological]

/-- A clause is tautological when it holds a variable in both ways. -/
theorem isTautological_iff_both {c : Clause} :
    c.isTautological = true ↔ ∃ v, .positive v ∈ c.literals ∧ .negative v ∈ c.literals := by
  rw [isTautological_iff]
  apply Iff.intro
  · intro paired
    rcases paired with ⟨⟨sign, v⟩, present, complementPresent⟩
    cases sign with
    | positive => exact ⟨v, present, complementPresent⟩
    | negative => exact ⟨v, complementPresent, present⟩
  · intro both
    rcases both with ⟨v, positive, negative⟩
    exact ⟨.positive v, positive, negative⟩

theorem eval_of_isTautological {c : Clause} (tautological : c.isTautological = true)
    (valuation : Valuation) : c.eval valuation = true := by
  obtain ⟨l, present, complementPresent⟩ := isTautological_iff.mp tautological
  rw [eval_iff]
  by_cases holds : l.eval valuation = true
  · exact ⟨l, present, holds⟩
  · exact ⟨l.complement, complementPresent, by simpa [Literal.eval_complement] using holds⟩

end Clause

namespace Formula

theorem eval_iff {f : Formula} {valuation : Valuation} :
    f.eval valuation = true ↔ ∀ c ∈ f.clauses, c.eval valuation = true := by
  simp [eval]

/-- A formula is true when each clause has a literal that is. -/
theorem eval_iff_literals {f : Formula} {valuation : Valuation} :
    f.eval valuation = true ↔
      ∀ c ∈ f.clauses, ∃ l ∈ c.literals, valuation l.var = l.sign.toBool := by
  simp only [eval_iff, Clause.eval_iff, Literal.eval_iff]

theorem satisfiable_iff_literals {f : Formula} :
    f.Satisfiable ↔
      ∃ valuation : Valuation,
        ∀ c ∈ f.clauses, ∃ l ∈ c.literals, valuation l.var = l.sign.toBool := by
  simp only [Satisfiable, eval_iff_literals]

/-- Valuations that agree on the variables of a formula give it one value. -/
theorem eval_congr {f : Formula} {first second : Valuation}
    (agree : ∀ v ∈ f.vars, first v = second v) : f.eval first = f.eval second := by
  rw [Bool.eq_iff_iff, eval_iff_literals, eval_iff_literals]
  apply forall_congr'
  intro c
  apply imp_congr_right
  intro inFormula
  apply exists_congr
  intro l
  apply and_congr_right
  intro inClause
  rw [agree l.var (mem_vars.mpr ⟨c, inFormula, l, inClause, rfl⟩)]

end Formula

end Clausal
