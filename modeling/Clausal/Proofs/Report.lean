/-
# What reports say of a formula

A report is made from a matrix, but what it says is about the formula that was
read. The columns are the formula's own variables, so their number is right even
where a clause was left out, while the rows are only those of the clauses that
stayed. Leaving a tautology out changes no model, and so the verdict is that on
the formula as it was written.

Every procedure decides the same question, so two that are compared never
differ, and the complaint that they do is never made.
-/

import Clausal.Log.Account
import Clausal.Proofs.Decision
import Mathlib.Data.Finset.Card

namespace Clausal

namespace Formula

/-- The columns of a formula's own matrix are the variables that it mentions,
counted once each. -/
theorem length_vars (f : Formula) :
    f.vars.length = (f.clauses.flatMap fun c => c.literals.map Literal.var).toFinset.card := by
  rw [← List.toFinset_card_of_nodup f.nodup_vars]
  congr 1
  ext v
  simp [vars]

theorem length_rows_matrix (f : Formula) (columns : List Variable) :
    (f.matrix columns).rows.length = (f.clauses.filter fun c => !c.isTautological).length :=
  List.length_map _

/-- The report on a formula, given what a procedure found: how many variables the
formula mentions and how many of its clauses hold no complementary pair. -/
def describe (f : Formula) (name : String) (procedure : Procedure) (verdict : Verdict)
    (work : Nat) : Report where
  name := name
  variableCount := (f.clauses.flatMap fun c => c.literals.map Literal.var).toFinset.card
  clauseCount := (f.clauses.filter fun c => !c.isTautological).length
  solver := .only procedure
  verdict := verdict
  work := work

/-- A report on the formula's own matrix describes the formula. -/
theorem report_matrix_eq_describe (f : Formula) (name : String) (procedure : Procedure) :
    procedure.report name (f.matrix f.vars) =
      f.describe name procedure (procedure.run (f.matrix f.vars)).1
        (procedure.run (f.matrix f.vars)).2 := by
  rw [Procedure.report, describe, ← length_vars, ← f.length_rows_matrix f.vars]
  rfl

end Formula

namespace Solver

/-- Two procedures that are compared come to one verdict. -/
theorem disagreement_eq_nil (solver : Solver) (name : String) (m : ClauseMatrix) :
    solver.disagreement name m = [] := by
  cases solver with
  | only procedure => rfl
  | both => exact if_pos (Procedure.run_fst_eq .splitting .backtracking m)

end Solver

namespace Settings

/-- When a written formula gets reports, and which. -/
theorem solve_eq_ok_iff {settings : Settings} {name text : String} {reports : List Report} :
    settings.solve name text = .ok reports ↔
      ∃ f m, settings.format.parse text = .ok f ∧
        ClauseMatrix.ofFormula f settings.tautologies = .ok m ∧
        (settings.solver.procedures.map fun procedure => procedure.report name m) = reports := by
  cases read : settings.format.parse text with
  | error cause => simp [solve, matrixOf, read, bind, Except.bind]
  | ok f =>
      cases encoded : ClauseMatrix.ofFormula f settings.tautologies with
      | error cause => simp [solve, matrixOf, read, encoded, bind, Except.bind, Except.mapError]
      | ok m =>
          simp [solve, matrixOf, read, encoded, bind, Except.bind, Except.mapError, pure,
            Except.pure]

/-- The complaint that procedures differ is not among the events of any run. -/
theorem verdictsDiffer_not_mem_solveEvents (settings : Settings) (name text source : String)
    (first second : Verdict) :
    .verdictsDiffer source first second ∉ settings.solveEvents name text := by
  have unread : .verdictsDiffer source first second ∉ settings.format.parseEvents text := by
    cases settings.format with
    | expression => simp [InputFormat.parseEvents]
    | dimacs =>
        cases read : Dimacs.parseText text <;>
          simp [InputFormat.parseEvents, Dimacs.eventsOfResult, read]
  have unsearched (procedure : Procedure) (m : ClauseMatrix) :
      .verdictsDiffer source first second ∉ procedure.events m := by
    cases procedure <;>
      simp [Procedure.events, ClauseMatrix.splitEvents, ClauseMatrix.searchEvents]
  rw [solveEvents]
  cases settings.format.parse text with
  | error cause => simpa using unread
  | ok f =>
      cases encoded : (Encoding.ofFormula f.vars f settings.tautologies).result with
      | error cause => simp [unread, Encoding.events, encoded]
      | ok m =>
          simp [unread, unsearched, Encoding.events, encoded, Solver.disagreement_eq_nil]

/-- Reports, where there are any, are right about the formula that was read. Each
says whether some valuation makes a literal of every clause true, how many
variables the formula mentions, how many clauses without a complementary pair it
has, and what the procedure counts that is run afresh on its matrix. A comparison
gives the report of the case split and then that of the search, with one verdict,
and is never the occasion for a complaint. -/
theorem solve_reports_describe_formula {settings : Settings} {name text : String}
    {reports : List Report} (solved : settings.solve name text = .ok reports) :
    ∃ f m verdict,
      settings.format.parse text = .ok f ∧
      ClauseMatrix.ofFormula f settings.tautologies = .ok m ∧
      (verdict = .satisfiable ↔ ∃ valuation : Valuation,
        ∀ c ∈ f.clauses, ∃ l ∈ c.literals, valuation l.var = l.sign.toBool) ∧
      (reports = match settings.solver with
        | .only .splitting =>
            [f.describe name .splitting verdict (Splitter.new m).solve.2.nodes]
        | .only .backtracking =>
            [f.describe name .backtracking verdict (Backtracker.new m).solve.2.assignments]
        | .both =>
            [f.describe name .splitting verdict (Splitter.new m).solve.2.nodes,
              f.describe name .backtracking verdict (Backtracker.new m).solve.2.assignments]) ∧
      ∀ source first second,
        .verdictsDiffer source first second ∉ settings.solveEvents name text := by
  obtain ⟨f, m, read, encoded, rfl⟩ := solve_eq_ok_iff.mp solved
  obtain ⟨-, -, -, rfl⟩ := ClauseMatrix.encode_eq_ok_iff.mp encoded
  refine ⟨f, f.matrix f.vars, (Procedure.splitting.run (f.matrix f.vars)).1, read, encoded,
    ?_, ?_, settings.verdictsDiffer_not_mem_solveEvents name text⟩
  · rw [Procedure.run_eq_satisfiable_iff, ClauseMatrix.satisfiable_iff_of_encode encoded,
      Formula.satisfiable_iff_literals]
  · have oneVerdict := Procedure.run_fst_eq .backtracking .splitting (f.matrix f.vars)
    simp only [Formula.report_matrix_eq_describe]
    cases settings.solver with
    | only procedure =>
        cases procedure with
        | splitting => rfl
        | backtracking =>
            rw [← oneVerdict]
            rfl
    | both =>
        simp only [Solver.procedures, List.map_cons, List.map_nil, oneVerdict]
        rfl

/-- A comparison on a formula of which one clause is left out, and with it the only
occurrences of a variable. -/
theorem solve_reports_describe_formula_comparison :
    (Settings.mk .both .expression .drop).solve "t" "(1V~1)^(~3)" =
        .ok [⟨"t", 2, 1, .only .splitting, .satisfiable, 7⟩,
          ⟨"t", 2, 1, .only .backtracking, .satisfiable, 1⟩] ∧
      ∃ f m verdict,
        InputFormat.expression.parse "(1V~1)^(~3)" = .ok f ∧
        ClauseMatrix.ofFormula f .drop = .ok m ∧
        (verdict = .satisfiable ↔ ∃ valuation : Valuation,
          ∀ c ∈ f.clauses, ∃ l ∈ c.literals, valuation l.var = l.sign.toBool) ∧
        [⟨"t", 2, 1, .only .splitting, .satisfiable, 7⟩,
            ⟨"t", 2, 1, .only .backtracking, .satisfiable, 1⟩] =
          [f.describe "t" .splitting verdict (Splitter.new m).solve.2.nodes,
            f.describe "t" .backtracking verdict (Backtracker.new m).solve.2.assignments] ∧
        ∀ source first second,
          .verdictsDiffer source first second ∉
            (Settings.mk .both .expression .drop).solveEvents "t" "(1V~1)^(~3)" := by
  have solved : (Settings.mk .both .expression .drop).solve "t" "(1V~1)^(~3)" =
      .ok [⟨"t", 2, 1, .only .splitting, .satisfiable, 7⟩,
        ⟨"t", 2, 1, .only .backtracking, .satisfiable, 1⟩] := rfl
  exact ⟨solved, solve_reports_describe_formula solved⟩

end Settings

end Clausal
