/-
# Round trips

Printing a formula and reading the expression gives the formula back, if an expression
can say it at all. Every formula that an expression writes is of this kind. A DIMACS
file skips empty clauses and has no literals of the variable zero, so the only formula
it can write that no expression can is the one without clauses.
-/

import Clausal.Proofs.Dimacs.Acceptance
import Clausal.Proofs.Expression.Printing

namespace Clausal

namespace Dimacs

theorem exists_of_mem_right {α β : Type} {R : α → β → Prop} {as : List α} {bs : List β}
    (each : List.Forall₂ R as bs) {b : β} (present : b ∈ bs) : ∃ a ∈ as, R a b := by
  induction each with
  | nil => cases present
  | cons related others ih =>
      rcases List.mem_cons.mp present with here | later
      · subst here
        exact ⟨_, List.mem_cons_self, related⟩
      · rcases ih later with ⟨a, listed, relatedLater⟩
        exact ⟨a, List.mem_cons_of_mem _ listed, relatedLater⟩

theorem WritesLiteral.index_ne_zero {word : List Char} {l : Literal}
    (written : WritesLiteral word l) : l.var.index ≠ 0 := by
  cases written with
  | positive written named => exact Nat.ne_of_gt named
  | negative written named => exact Nat.ne_of_gt named

theorem WritesClause.expressible {segment : List (List Char)} {c : Clause}
    (someWord : segment ≠ []) (written : WritesClause segment c) : c.Expressible := by
  apply Clause.Expressible.mk
  · intro empty
    apply someWord
    have each : List.Forall₂ WritesLiteral segment c.literals := written
    rwa [empty, List.forall₂_nil_right_iff] at each
  · intro l present
    rcases exists_of_mem_right written present with ⟨word, -, literal⟩
    exact literal.index_ne_zero

/-- The clauses of a file are not empty, and their variables are numbered from one. -/
theorem WritesNumbers.expressible {variableCount : Nat} {numbers : List (List Char)} {f : Formula}
    (written : WritesNumbers variableCount numbers f) : ∀ c ∈ f.clauses, c.Expressible := by
  intro c present
  rcases exists_of_mem_right written.clauses present with ⟨segment, listed, clause⟩
  have someWord : segment ≠ [] := by simpa using (List.mem_filter.mp listed).2
  exact clause.expressible someWord

end Dimacs

namespace Formula

/-- A printed formula is read back if an expression can say it, and otherwise the error names
the first thing that no expression can say, in the words given here. Every formula that has
been read from an expression is read back, and so is every formula from a file unless it has
no clauses. -/
theorem parse_toString_round_trip (f : Formula) :
    (f.Expressible → Expression.parse (toString f) = .ok f) ∧
    (¬ f.Expressible → ∃ cause, f.Inexpressible cause ∧
      Expression.parse (toString f) = .error cause) ∧
    Malformed.emptyExpression.reason = "empty expression" ∧
    (∀ clause, (Malformed.emptyClause clause).reason = s!"clause {clause} is empty") ∧
    (∀ token clause, (Malformed.invalidLiteral token clause).reason =
      s!"invalid literal '{token}' in clause {clause}") ∧
    (∀ text, Expression.parse text = .ok f →
      f.Expressible ∧ Expression.parse (toString f) = .ok f) ∧
    ∀ s, Dimacs.parse s = .ok f → f.clauses ≠ [] →
      f.Expressible ∧ Expression.parse (toString f) = .ok f := by
  refine ⟨parse_toString_of_expressible, exists_inexpressible_of_not_expressible, rfl,
    fun clause => rfl, fun token clause => rfl, ?_, ?_⟩
  · intro text read
    have written : Expression.Writes text.toList f := Expression.read_eq_ok_iff.mp read
    exact ⟨written.expressible, parse_toString_of_expressible written.expressible⟩
  · intro s read someClause
    rcases Dimacs.readLines_eq_ok_iff.mp read with ⟨variableCount, clauseCount, written⟩
    have expressible : f.Expressible := ⟨someClause, written.numbers.expressible⟩
    exact ⟨expressible, parse_toString_of_expressible expressible⟩

/-- The second of two zeros ends no clause, so the file has two clauses. -/
theorem parse_toString_round_trip_file :
    let one : Variable := { index := 1 }
    let two : Variable := { index := 2 }
    let f : Formula := ⟨[⟨[.positive one, .negative two]⟩, ⟨[.negative one]⟩]⟩
    Dimacs.parse ⟨"p cnf 2 2\n1 -2 0 0 -1 0\n".toUTF8.toList, none⟩ = .ok f ∧
      f.Expressible ∧ Expression.parse (toString f) = .ok f := by
  intro one two f
  have read : Dimacs.parse ⟨"p cnf 2 2\n1 -2 0 0 -1 0\n".toUTF8.toList, none⟩ = .ok f := by
    decide +kernel
  obtain ⟨-, -, -, -, -, -, ofFile⟩ := f.parse_toString_round_trip
  exact ⟨read, ofFile _ read (List.cons_ne_nil _ _)⟩

/-- The variable zero is found in the first clause, before the empty one after it. -/
example :
    let zero : Variable := { index := 0 }
    let one : Variable := { index := 1 }
    let f : Formula := ⟨[⟨[.positive one, .negative zero]⟩, ⟨[]⟩]⟩
    toString f = "(1V~0)^()" ∧ Expression.parse (toString f) = .error (.invalidLiteral "~0" 0) := by
  decide +kernel

end Formula

end Clausal
