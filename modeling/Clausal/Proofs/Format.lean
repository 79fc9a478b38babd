/-
# The format does not matter

A formula may be written as an expression or as a file. Both are read back as the same
formula, with the same order of clauses and literals, and nothing that comes after
reading looks at the text again. So the answers are the same, the numbers of clauses
in errors and the work in reports included.
-/

import Clausal.Proofs.Decision
import Clausal.Proofs.Dimacs.Printing
import Clausal.Solve

namespace Clausal

namespace Settings

variable {text : String} {f : Formula}

/-- Solving a formula that was read: its fault, or a report of each procedure on its matrix. -/
theorem solve_eq_okUnless (settings : Settings) (read : settings.format.parse text = .ok f)
    (name : String) :
    settings.solve name text =
      okUnless ((f.fault? f.vars settings.tautologies).map .formula)
        (settings.solver.procedures.map fun procedure =>
          procedure.report name (f.matrix f.vars)) := by
  rw [solve, matrixOf, read]
  show ((ClauseMatrix.ofFormula f settings.tautologies).mapError SolveError.formula).bind _ = _
  rw [ClauseMatrix.ofFormula_eq]
  cases f.fault? f.vars settings.tautologies with
  | none => rfl
  | some cause => rfl

/-- A formula with at least one clause is answered alike from an expression and from a file:
with the same reports, or with the same error, which names a clause and a variable that the
clause holds in both ways. -/
theorem solve_same_in_either_format {variableCount clauseCount : UInt64}
    (someClause : f.clauses ≠ []) (fits : f.Fits variableCount clauseCount) (solver : Solver)
    (tautologies : TautologyPolicy) (name : String) :
    let file := String.ofList (f.writeDimacs variableCount.toNat clauseCount.toNat)
    (∃ reports,
      (Settings.mk solver .expression tautologies).solve name (toString f) = .ok reports ∧
      (Settings.mk solver .dimacs tautologies).solve name file = .ok reports) ∨
    ∃ clause c v, f.clauses[clause]? = some c ∧ .positive v ∈ c.literals ∧
      .negative v ∈ c.literals ∧
      (Settings.mk solver .expression tautologies).solve name (toString f) =
        .error (.formula (.inconsistentClause clause v)) ∧
      (Settings.mk solver .dimacs tautologies).solve name file =
        .error (.formula (.inconsistentClause clause v)) := by
  intro file
  have fromExpression : InputFormat.expression.parse (toString f) = .ok f := by
    have read := Formula.parse_toString_of_expressible ⟨someClause, fits.clauses⟩
    rw [InputFormat.parse, read]
    rfl
  have fromFile : InputFormat.dimacs.parse file = .ok f := by
    rw [InputFormat.parse, f.parseText_writeDimacs fits]
    rfl
  rw [solve_eq_okUnless ⟨solver, .expression, tautologies⟩ fromExpression,
    solve_eq_okUnless ⟨solver, .dimacs, tautologies⟩ fromFile]
  cases faulty : f.fault? f.vars tautologies with
  | none => exact Or.inl ⟨_, rfl, rfl⟩
  | some cause =>
      rcases Formula.exists_both_of_fault?_eq_some f.var_mem_vars faulty with
        ⟨clause, c, v, place, positive, negative, rfl⟩
      exact Or.inr ⟨clause, c, v, place, positive, negative, rfl, rfl⟩

/-- The header declares more variables and more clauses than there are. -/
theorem solve_same_in_either_format_roomy_header :
    let one : Variable := { index := 1 }
    let two : Variable := { index := 2 }
    let f : Formula := ⟨[⟨[.positive one, .negative two]⟩, ⟨[.positive two]⟩]⟩
    let file := String.ofList (f.writeDimacs 3 7)
    file = "p cnf 3 7\n1 -2 0\n2 0\n" ∧ f.Fits 3 7 ∧
      ∃ reports, (Settings.mk .both .expression .reject).solve "t" (toString f) = .ok reports ∧
        (Settings.mk .both .dimacs .reject).solve "t" file = .ok reports := by
  intro one two f file
  have fits : f.Fits 3 7 := ⟨by decide, by decide, by decide, by decide⟩
  have consistent : ∀ c ∈ f.clauses, ∀ l ∈ c.literals, l.complement ∉ c.literals := by decide
  refine ⟨by decide +kernel, fits, ?_⟩
  rcases solve_same_in_either_format (List.cons_ne_nil _ _) fits .both .reject "t" with
    same | ⟨clause, c, v, place, positive, negative, -⟩
  · exact same
  · exact False.elim (consistent c (List.mem_of_getElem? place) _ positive negative)

end Settings

end Clausal
