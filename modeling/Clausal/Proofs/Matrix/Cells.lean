/-
# The matrix of a formula, cell by cell

When a formula can be encoded, and what its matrix then says: there is a row for each
clause without a complementary pair, in the order of the clauses, and a cell has the
sign with which its variable occurs in the clause, whatever the order and the
repetition of the literals.

The clauses that are left out are named as they are read. An encoding that fails has
named those that came before the clause at fault.
-/

import Clausal.Log.Account
import Clausal.Proofs.Matrix.Encoding

namespace Clausal

namespace Clause

theorem isTautological_eq_false_iff_not_both {c : Clause} :
    c.isTautological = false ↔ ∀ v, ¬ (.positive v ∈ c.literals ∧ .negative v ∈ c.literals) := by
  rw [← Bool.not_eq_true, isTautological_iff_both, not_exists]

/-- In a clause without complementary pairs a cell tells which literal of its variable
occurs. -/
theorem cell_of_not_isTautological {c : Clause} (consistent : c.isTautological = false)
    (v : Variable) :
    c.cell v =
      if .positive v ∈ c.literals then some .positive
      else if .negative v ∈ c.literals then some .negative
      else none := by
  by_cases positive : Literal.positive v ∈ c.literals
  · rw [if_pos positive]
    exact cell_of_mem consistent positive
  · rw [if_neg positive]
    by_cases negative : Literal.negative v ∈ c.literals
    · rw [if_pos negative]
      exact cell_of_mem consistent negative
    · rw [if_neg negative, cell_eq_none_iff]
      rintro ⟨sign, _⟩ present rfl
      cases sign with
      | positive => exact positive present
      | negative => exact negative present

end Clause

theorem Formula.rows_matrix_eq (columns : List Variable) (f : Formula) :
    (f.matrix columns).rows =
      (f.clauses.filter fun c => !c.isTautological).map fun c =>
        columns.map fun v =>
          if .positive v ∈ c.literals then some .positive
          else if .negative v ∈ c.literals then some .negative
          else none := by
  apply List.map_congr_left
  intro c kept
  have consistent : c.isTautological = false := by simpa using (List.mem_filter.mp kept).2
  apply List.map_congr_left
  intro v _
  exact Clause.cell_of_not_isTautological consistent v

namespace Encoding

section drafts

variable {width : Nat} (drafts : List (Except FormulaError (Draft width)))

/-- A draft is named by its number, and only if it is one of a tautology. -/
theorem eq_and_tautological_of_named {draft : Except FormulaError (Draft width)}
    {place clause : Nat} (named : (match (draft, place) with
      | (.ok draft, clause) => if draft.tautological then some clause else none
      | (.error _, _) => none) = some clause) :
    place = clause ∧ ∃ written, draft = .ok written ∧ written.tautological = true := by
  cases draft with
  | error cause => cases named
  | ok written =>
      obtain ⟨tautological, same⟩ := Option.ite_none_right_eq_some.mp named
      exact ⟨Option.some.inj same, written, rfl, tautological⟩

theorem mem_droppedOf_iff {clause : Nat} :
    clause ∈ droppedOf drafts ↔
      (∃ draft, drafts[clause]? = some (.ok draft) ∧ draft.tautological = true) ∧
        ∀ i ≤ clause, ∀ earlier, drafts[i]? = some earlier → earlier.isOk = true := by
  rw [droppedOf, List.mem_filterMap]
  apply Iff.intro
  · intro found
    rcases found with ⟨⟨draft, place⟩, reached, named⟩
    obtain ⟨rfl, written, rfl, tautological⟩ := eq_and_tautological_of_named named
    rw [mem_takeWhile_zipIdx_iff] at reached
    exact ⟨⟨written, reached.1, tautological⟩, reached.2⟩
  · intro conditions
    rcases conditions with ⟨⟨draft, place, tautological⟩, reached⟩
    exact ⟨(.ok draft, clause), mem_takeWhile_zipIdx_iff.mpr ⟨place, reached⟩,
      if_pos tautological⟩

theorem pairwise_droppedOf : (droppedOf drafts).Pairwise fun first second => first < second := by
  have numbered : (drafts.zipIdx.map Prod.snd).Pairwise fun first second => first < second := by
    rw [List.zipIdx_map_snd]
    exact List.pairwise_lt_range' ..
  have ascending := (List.pairwise_map.mp numbered).sublist
    (List.takeWhile_sublist fun p => p.1.isOk)
  refine List.pairwise_filterMap.mpr (ascending.imp ?_)
  intro first second below m firstNamed n secondNamed
  obtain ⟨rfl, -⟩ := eq_and_tautological_of_named firstNamed
  obtain ⟨rfl, -⟩ := eq_and_tautological_of_named secondNamed
  exact below

end drafts

variable {columns : List Variable} {f : Formula} {policy : TautologyPolicy} {clause : Nat}

/-- The clauses that are left out are named in their order. -/
theorem pairwise_dropped (columns : List Variable) (f : Formula) (policy : TautologyPolicy) :
    (ofFormula columns f policy).dropped.Pairwise fun first second => first < second := by
  rw [ofFormula]
  split
  · exact pairwise_droppedOf _
  · exact List.Pairwise.nil

theorem dropped_of_not_ascending (unsorted : Variable.ascending columns = false) :
    (ofFormula columns f policy).dropped = [] := by
  simp [ofFormula, unsorted]

theorem getElem?_drafts (nodup : columns.Nodup) (clause : Nat) :
    (drafts columns f policy)[clause]? = f.clauses[clause]?.map fun c =>
      okUnless (Draft.clauseFault? columns policy clause [] c.literals)
        (Draft.written columns c) := by
  simp only [drafts, List.getElem?_map, List.getElem?_zipIdx, Option.map_map, Function.comp_def,
    Nat.zero_add, Draft.ofClause_eq nodup]

/-- A clause is left out when it is tautological and neither it nor a clause before it
is at fault. -/
theorem mem_dropped_iff (sorted : Variable.ascending columns = true) :
    clause ∈ (ofFormula columns f policy).dropped ↔
      (∃ c, f.clauses[clause]? = some c ∧ c.isTautological = true) ∧
        ∀ i ≤ clause, ∀ earlier, f.clauses[i]? = some earlier →
          (∀ l ∈ earlier.literals, l.var ∈ columns) ∧
            (policy = .reject → earlier.isTautological = false) := by
  have nodup := Variable.nodup_of_ascending sorted
  have faultlessIff (i : Nat) (c : Clause) :
      Draft.clauseFault? columns policy i [] c.literals = none ↔
        (∀ l ∈ c.literals, l.var ∈ columns) ∧ (policy = .reject → c.isTautological = false) :=
    Draft.clauseFault?_eq_none_iff fun _ => rfl
  simp only [ofFormula, sorted, if_true, mem_droppedOf_iff, getElem?_drafts nodup,
    Option.map_eq_some_iff, forall_exists_index, and_imp, forall_apply_eq_imp_iff₂,
    isOk_okUnless_iff, faultlessIff]
  apply and_congr_left
  intro reached
  apply Iff.intro
  · intro named
    rcases named with ⟨draft, ⟨c, place, drafted⟩, tautological⟩
    obtain ⟨-, rfl⟩ := okUnless_eq_ok_iff.mp drafted
    exact ⟨c, place, tautological⟩
  · intro named
    rcases named with ⟨c, place, tautological⟩
    have faultless := (faultlessIff clause c).mpr (reached clause (Nat.le_refl _) c place)
    exact ⟨Draft.written columns c, ⟨c, place, okUnless_eq_ok_iff.mpr ⟨faultless, rfl⟩⟩,
      tautological⟩

end Encoding

namespace ClauseMatrix

/-- Encoding succeeds exactly when the columns are in order, each variable has one and,
where pairs are refused, no clause holds a variable in both ways. The rows are then the
clauses without a pair in their order, and a cell tells how its variable occurs. The
clauses named as left out are, in ascending order, those that are tautological; where
the encoding fails, those of them before the first clause at fault. -/
theorem encode_describes_clauses (columns : List Variable) (f : Formula)
    (policy : TautologyPolicy) :
    let encoding := Encoding.ofFormula columns f policy
    ((∃ m, encode columns f policy = .ok m) ↔
      columns.Pairwise (fun first second => first < second) ∧
        (∀ c ∈ f.clauses, ∀ l ∈ c.literals, l.var ∈ columns) ∧
          (policy = .reject → ∀ c ∈ f.clauses, ∀ v,
            ¬ (.positive v ∈ c.literals ∧ .negative v ∈ c.literals))) ∧
      (∀ m, encode columns f policy = .ok m →
        m.width = columns.length ∧
          m.rows = (f.clauses.filter fun c => !c.isTautological).map (fun c =>
            columns.map fun v =>
              if .positive v ∈ c.literals then some .positive
              else if .negative v ∈ c.literals then some .negative
              else none) ∧
          ∀ clause, clause ∈ encoding.dropped ↔
            ∃ c, f.clauses[clause]? = some c ∧ c.isTautological = true) ∧
      encoding.events = encoding.dropped.map .clauseDropped ∧
      (encoding.events.map Event.message = encoding.dropped.map fun clause =>
        s!"dropping tautological clause {clause}") ∧
      encoding.dropped.Pairwise (fun first second => first < second) ∧
      ∀ clause, clause ∈ encoding.dropped ↔
        columns.Pairwise (fun first second => first < second) ∧
          (∃ c, f.clauses[clause]? = some c ∧ c.isTautological = true) ∧
            ∀ i ≤ clause, ∀ earlier, f.clauses[i]? = some earlier →
              (∀ l ∈ earlier.literals, l.var ∈ columns) ∧
                (policy = .reject → earlier.isTautological = false) := by
  refine ⟨?_, ?_, rfl, List.map_map, Encoding.pairwise_dropped columns f policy, ?_⟩
  · simp only [encode_eq_ok_iff, Variable.ascending_iff_pairwise, exists_and_left, exists_eq',
      and_true, Clause.isTautological_eq_false_iff_not_both]
  · intro m encoded
    obtain ⟨sorted, covered, consistent, rfl⟩ := encode_eq_ok_iff.mp encoded
    refine ⟨rfl, f.rows_matrix_eq columns, fun clause => ?_⟩
    rw [Encoding.mem_dropped_iff sorted, and_iff_left_iff_imp]
    intro _ i _ earlier place
    have present := List.mem_of_getElem? place
    exact ⟨covered earlier present, fun refused => consistent refused earlier present⟩
  · intro clause
    rw [← Variable.ascending_iff_pairwise]
    cases order : Variable.ascending columns with
    | false => simp [Encoding.dropped_of_not_ascending order]
    | true => simp only [Encoding.mem_dropped_iff order, true_and]

end ClauseMatrix

end Clausal
