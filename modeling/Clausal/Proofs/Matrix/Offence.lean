/-
# The first offence

A literal offends when there is no column for its variable or, where pairs are
refused, when its complement comes before it in its clause. The encoder reads the
clauses in their order and the literals of each clause in theirs, and what it reports
is the first offence, by the number of the clause in the formula and the variable of
the literal. It keeps no list of the literals it has read, only the cell of each
variable, which is why that has to be proved.
-/

import Clausal.Proofs.Matrix.Encoding

namespace Clausal

namespace Draft

variable {columns : List Variable} {policy : TautologyPolicy} {clause : Nat}
  {before literals : List Literal} {l : Literal} {cause : FormulaError}

theorem literalFault?_eq_some_iff :
    literalFault? columns policy clause before l = some cause ↔
      (l.var ∉ columns ∨ policy = .reject ∧ l.complement ∈ before) ∧
        cause = if l.var ∉ columns then .malformed (.outsideColumns clause l.var)
          else .inconsistentClause clause l.var := by
  by_cases covered : l.var ∈ columns
  · rw [literalFault?_eq_some_iff_of_covered covered]
    simp [covered, eq_comm]
  · simp [literalFault?, covered, eq_comm]

/-- The first fault among literals is found at their places, each after all literals
that come before it. -/
theorem clauseFault?_eq_findSome? :
    clauseFault? columns policy clause before literals =
      literals.zipIdx.findSome? fun numbered =>
        literalFault? columns policy clause (before ++ literals.take numbered.2) numbered.1 := by
  induction literals generalizing before with
  | nil => rfl
  | cons l rest ih =>
      rw [clauseFault?, ih, List.zipIdx_cons', List.findSome?_cons, List.findSome?_map]
      simp only [List.take_zero, List.append_nil, Function.comp_def, Prod.map_fst, Prod.map_snd,
        id, List.take_succ_cons, List.append_assoc, List.singleton_append]
      cases literalFault? columns policy clause before l <;> rfl

end Draft

namespace Formula

/-- The literal at a place of a clause has no column, or it comes after its complement
where that is refused. -/
def Offends (columns : List Variable) (policy : TautologyPolicy) (f : Formula)
    (clause place : Nat) : Prop :=
  ∃ c l, f.clauses[clause]? = some c ∧ c.literals[place]? = some l ∧
    (l.var ∉ columns ∨
      policy = .reject ∧ ∃ earlier < place, c.literals[earlier]? = some l.complement)

variable {columns : List Variable} {policy : TautologyPolicy} {f : Formula} {clause place : Nat}
  {c : Clause} {l : Literal} {cause : FormulaError}

/-- A literal offends when it is at fault after those that come before it. -/
theorem offends_iff (inFormula : f.clauses[clause]? = some c)
    (inClause : c.literals[place]? = some l) :
    f.Offends columns policy clause place ↔
      l.var ∉ columns ∨ policy = .reject ∧ l.complement ∈ c.literals.take place := by
  have earlier : (∃ earlier < place, c.literals[earlier]? = some l.complement) ↔
      l.complement ∈ c.literals.take place := by
    simp only [List.mem_iff_getElem?, List.getElem?_take, Option.ite_none_right_eq_some]
  simp [Offends, inFormula, inClause, earlier]

theorem not_offends_iff (inFormula : f.clauses[clause]? = some c) :
    ¬ f.Offends columns policy clause place ↔
      ∀ l, c.literals[place]? = some l →
        Draft.literalFault? columns policy clause (c.literals.take place) l = none := by
  cases inClause : c.literals[place]? with
  | none => simp [Offends, inFormula, inClause]
  | some l =>
      simp only [Option.some.injEq, forall_eq']
      rw [offends_iff inFormula inClause, Draft.literalFault?_eq_none_iff, not_or,
        Decidable.not_not, not_and]

/-- No place in a clause offends when the clause is without fault. -/
theorem forall_not_offends_iff :
    (∀ place, ¬ f.Offends columns policy clause place) ↔
      ∀ c, f.clauses[clause]? = some c →
        Draft.clauseFault? columns policy clause [] c.literals = none := by
  cases inFormula : f.clauses[clause]? with
  | none => simp [Offends, inFormula]
  | some c =>
      simp only [Option.some.injEq, forall_eq', not_offends_iff inFormula,
        Draft.clauseFault?_eq_findSome?, List.nil_append]
      exact (findSome?_zipIdx_eq_none_iff fun l place =>
        Draft.literalFault? columns policy clause (c.literals.take place) l).symm

/-- The fault of a clause is that of the first place in it that offends. -/
theorem clauseFault?_eq_some_iff_first (inFormula : f.clauses[clause]? = some c) :
    Draft.clauseFault? columns policy clause [] c.literals = some cause ↔
      ∃ place l, c.literals[place]? = some l ∧ f.Offends columns policy clause place ∧
        (∀ earlier < place, ¬ f.Offends columns policy clause earlier) ∧
          cause = if l.var ∉ columns then .malformed (.outsideColumns clause l.var)
            else .inconsistentClause clause l.var := by
  simp only [Draft.clauseFault?_eq_findSome?, List.nil_append]
  rw [findSome?_zipIdx_eq_some_iff fun l place =>
    Draft.literalFault? columns policy clause (c.literals.take place) l]
  apply exists_congr
  intro place
  apply exists_congr
  intro l
  apply and_congr_right
  intro inClause
  simp only [Draft.literalFault?_eq_some_iff, ← offends_iff inFormula inClause,
    ← not_offends_iff inFormula, and_assoc, and_comm]

/-- The fault of a formula is that of the first place that offends, in the first clause
where there is one. -/
theorem fault?_eq_some_iff_first :
    f.fault? columns policy = some cause ↔
      ∃ clause place c l, f.clauses[clause]? = some c ∧ c.literals[place]? = some l ∧
        f.Offends columns policy clause place ∧
        (∀ i j, i < clause ∨ i = clause ∧ j < place → ¬ f.Offends columns policy i j) ∧
          cause = if l.var ∉ columns then .malformed (.outsideColumns clause l.var)
            else .inconsistentClause clause l.var := by
  have firstClause : f.fault? columns policy = some cause ↔
      ∃ clause c, f.clauses[clause]? = some c ∧
        Draft.clauseFault? columns policy clause [] c.literals = some cause ∧
          ∀ i < clause, ∀ earlier, f.clauses[i]? = some earlier →
            Draft.clauseFault? columns policy i [] earlier.literals = none :=
    findSome?_zipIdx_eq_some_iff fun (c : Clause) clause =>
      Draft.clauseFault? columns policy clause [] c.literals
  rw [firstClause]
  simp only [← forall_not_offends_iff]
  apply Iff.intro
  · intro found
    rcases found with ⟨clause, c, inFormula, faulty, clausesBefore⟩
    obtain ⟨place, l, inClause, offends, placesBefore, named⟩ :=
      (clauseFault?_eq_some_iff_first inFormula).mp faulty
    refine ⟨clause, place, c, l, inFormula, inClause, offends, ?_, named⟩
    intro i j before
    rcases before with earlierClause | ⟨rfl, earlierPlace⟩
    · exact clausesBefore i earlierClause j
    · exact placesBefore j earlierPlace
  · intro found
    rcases found with ⟨clause, place, c, l, inFormula, inClause, offends, before, named⟩
    refine ⟨clause, c, inFormula, ?_, fun i earlier j => before i j (Or.inl earlier)⟩
    exact (clauseFault?_eq_some_iff_first inFormula).mpr ⟨place, l, inClause, offends,
      fun j earlier => before clause j (Or.inr ⟨rfl, earlier⟩), named⟩

/-- Where tautologies are left out, only a variable without a column is an offence. -/
theorem fault?_drop_ne_some_inconsistentClause (v : Variable) :
    f.fault? columns .drop ≠ some (.inconsistentClause clause v) := by
  intro faulty
  obtain ⟨i, j, c, l, inFormula, inClause, offends, -, named⟩ := fault?_eq_some_iff_first.mp faulty
  have outside : l.var ∉ columns := by simpa [offends_iff inFormula inClause] using offends
  simp [outside] at named

end Formula

namespace ClauseMatrix

/-- Encoding fails when the columns are not in order, whatever the formula, and else with
the first place that offends: with the variable that has no column, or with the one
that the clause holds in both ways. Tautologies are no error where they are left out. -/
theorem encode_fails_with_first_offence (columns : List Variable) (f : Formula)
    (policy : TautologyPolicy) :
    (∀ cause, encode columns f policy = .error cause ↔
      (¬ columns.Pairwise (fun first second => first < second) ∧
          cause = .malformed .columnsNotAscending) ∨
        (columns.Pairwise (fun first second => first < second) ∧
          ∃ clause place c l, f.clauses[clause]? = some c ∧ c.literals[place]? = some l ∧
            f.Offends columns policy clause place ∧
            (∀ i j, i < clause ∨ i = clause ∧ j < place → ¬ f.Offends columns policy i j) ∧
              cause = if l.var ∉ columns then .malformed (.outsideColumns clause l.var)
                else .inconsistentClause clause l.var)) ∧
      Malformed.columnsNotAscending.reason = "literal universe is not strictly ascending" ∧
      (∀ clause v, (Malformed.outsideColumns clause v).reason =
        s!"clause {clause} mentions {v}, which is outside the literal universe") ∧
      ∀ clause v, encode columns f .drop ≠ .error (.inconsistentClause clause v) := by
  refine ⟨fun cause => ?_, rfl, fun clause v => rfl, fun clause v failed => ?_⟩
  · cases order : Variable.ascending columns with
    | false =>
        have unsorted : ¬ columns.Pairwise fun first second => first < second := by
          simp [← Variable.ascending_iff_pairwise, order]
        rw [encode_of_not_ascending order]
        simp [unsorted, eq_comm]
    | true =>
        have sorted := Variable.ascending_iff_pairwise.mp order
        rw [encode_eq order, okUnless_eq_error_iff, Formula.fault?_eq_some_iff_first]
        simp [sorted]
  · cases order : Variable.ascending columns with
    | false => simp [encode_of_not_ascending order] at failed
    | true =>
        rw [encode_eq order, okUnless_eq_error_iff] at failed
        exact Formula.fault?_drop_ne_some_inconsistentClause v failed

end ClauseMatrix

end Clausal
