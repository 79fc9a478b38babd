/-
# Deciding expressions

From a text to an answer, by one procedure or the other. The text is read twice,
for its variables and for its rows, and both readings give one formula. Its own
variables are in order and leave none of its literals without a column, so after
a successful reading only a complementary pair can stop the encoder.
-/

import Clausal.Proofs.Matrix.Models
import Clausal.Proofs.Search.Agreement
import Clausal.Solve

namespace Clausal

theorem Formula.var_mem_vars (f : Formula) : ∀ c ∈ f.clauses, ∀ l ∈ c.literals, l.var ∈ f.vars :=
  fun c inFormula l inClause => mem_vars.mpr ⟨c, inFormula, l, inClause, rfl⟩

/-- Against its own variables a formula has a fault only where pairs are refused and one of its
clauses holds one. -/
theorem Formula.fault?_vars_eq_none_iff {f : Formula} {policy : TautologyPolicy} :
    f.fault? f.vars policy = none ↔
      (policy = .reject → ∀ c ∈ f.clauses, c.isTautological = false) := by
  rw [fault?_eq_none_iff]
  exact and_iff_right f.var_mem_vars

/-- Against its own variables, a formula is encoded unless it has a fault. -/
theorem ClauseMatrix.ofFormula_eq (f : Formula) (policy : TautologyPolicy) :
    ofFormula f policy = okUnless (f.fault? f.vars policy) (f.matrix f.vars) :=
  encode_eq f.ascending_vars f policy

namespace Procedure

variable {procedure : Procedure} {text : String}

/-- A text that cannot be read is answered with the fault of its reading. -/
theorem decideExpression_of_parse_eq_error {cause : Malformed}
    (unread : Expression.parse text = .error cause) :
    procedure.decideExpression text = .error (.malformed cause) := by
  rw [decideExpression, Expression.vars, unread]
  rfl

/-- The second reading gives the formula of the first. -/
theorem decideExpression_of_parse_eq_ok {f : Formula} (read : Expression.parse text = .ok f) :
    procedure.decideExpression text =
      (ClauseMatrix.ofFormula f .reject).map fun m => (procedure.run m).1.toBool := by
  simp only [decideExpression, Expression.vars, ClauseMatrix.encodeExpression, read]
  rfl

/-- Deciding a formula that was read: its fault, or whether it is satisfiable. -/
theorem decideExpression_eq_okUnless {f : Formula} (read : Expression.parse text = .ok f) :
    procedure.decideExpression text =
      okUnless (f.fault? f.vars .reject) (procedure.run (f.matrix f.vars)).1.toBool := by
  rw [decideExpression_of_parse_eq_ok read, ClauseMatrix.ofFormula_eq, map_okUnless]

end Procedure

namespace Expression

/-- Both procedures give the same answer on every text: the fault of its reading;
or else a clause and a variable that the clause holds in both ways; or else, if
there is no such clause, whether some valuation makes a literal of each clause
true. -/
theorem decide_by_parse (text : String) :
    match Expression.parse text with
    | .error cause =>
        ∀ procedure : Procedure, procedure.decideExpression text = .error (.malformed cause)
    | .ok f =>
        (∃ clause c v, f.clauses[clause]? = some c ∧ .positive v ∈ c.literals ∧
          .negative v ∈ c.literals ∧
            ∀ procedure : Procedure,
              procedure.decideExpression text = .error (.inconsistentClause clause v)) ∨
        ((¬ ∃ c ∈ f.clauses, ∃ v, .positive v ∈ c.literals ∧ .negative v ∈ c.literals) ∧
          ∃ answer,
            (∀ procedure : Procedure, procedure.decideExpression text = .ok answer) ∧
            (answer = true ↔ ∃ valuation : Valuation,
              ∀ c ∈ f.clauses, ∃ l ∈ c.literals, valuation l.var = l.sign.toBool)) := by
  cases read : Expression.parse text with
  | error cause =>
      intro procedure
      exact Procedure.decideExpression_of_parse_eq_error read
  | ok f =>
      cases faulty : f.fault? f.vars .reject with
      | some cause =>
          obtain ⟨clause, c, v, place, positive, negative, rfl⟩ :=
            Formula.exists_both_of_fault?_eq_some f.var_mem_vars faulty
          refine Or.inl ⟨clause, c, v, place, positive, negative, fun procedure => ?_⟩
          rw [Procedure.decideExpression_eq_okUnless read, faulty]
          rfl
      | none =>
          have consistent := (Formula.fault?_eq_none_iff.mp faulty).2 rfl
          refine Or.inr ⟨?_, (Procedure.splitting.run (f.matrix f.vars)).1.toBool, ?_, ?_⟩
          · intro inconsistent
            rcases inconsistent with ⟨c, present, both⟩
            have tautological := Clause.isTautological_iff_both.mpr both
            exact Bool.false_ne_true ((consistent c present).symm.trans tautological)
          · intro procedure
            rw [Procedure.decideExpression_eq_okUnless read, faulty,
              procedure.run_fst_eq .splitting]
            rfl
          · rw [Verdict.toBool_eq_true, Procedure.run_eq_satisfiable_iff,
              ClauseMatrix.satisfiable_matrix_iff f.nodup_vars f.var_mem_vars,
              Formula.satisfiable_iff_literals]

end Expression

end Clausal
