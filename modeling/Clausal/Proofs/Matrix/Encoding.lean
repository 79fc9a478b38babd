/-
# What the encoder writes

A literal that meets its complement leaves the cell as it is and marks the
draft. So the draft is a function of the literals written until then, and after
a whole clause it has the row of that clause and a mark that says whether the
clause is tautological.

The encoder fails with the first literal that is at fault. A formula without
faults gets a matrix with the rows of its clauses in their order, those of
tautological clauses left out.
-/

import Clausal.Matrix.Encoding
import Clausal.Proofs.Fault
import Clausal.Proofs.Matrix.Row

namespace Clausal

namespace Draft

/-- The draft to which writing the literals of a clause leads. -/
def written (columns : List Variable) (c : Clause) : Draft columns.length where
  cells := c.row columns
  length_cells := c.length_row columns
  tautological := c.isTautological

theorem empty_eq_written (columns : List Variable) :
    empty columns.length = written columns ⟨[]⟩ := by
  ext1
  · exact List.map_const' .. |>.symm
  · rfl

/-- What is at fault with a literal after others of its clause: it has no column,
or its complement has come before and that is not allowed. -/
def literalFault? (columns : List Variable) (policy : TautologyPolicy) (clause : Nat)
    (before : List Literal) (l : Literal) : Option FormulaError :=
  if l.var ∉ columns then some (.malformed (.outsideColumns clause l.var))
  else if policy = .reject ∧ l.complement ∈ before then some (.inconsistentClause clause l.var)
  else none

/-- The first fault among literals that come after others. -/
def clauseFault? (columns : List Variable) (policy : TautologyPolicy) (clause : Nat) :
    (before literals : List Literal) → Option FormulaError
  | _, [] => none
  | before, l :: rest =>
      (literalFault? columns policy clause before l).or
        (clauseFault? columns policy clause (before ++ [l]) rest)

section literal

variable {columns : List Variable} {policy : TautologyPolicy} {clause : Nat}
  {before literals : List Literal} {l : Literal} {cause : FormulaError}

theorem literalFault?_eq_none_iff :
    literalFault? columns policy clause before l = none ↔
      l.var ∈ columns ∧ (policy = .reject → l.complement ∉ before) := by
  by_cases covered : l.var ∈ columns <;> simp [literalFault?, covered]

/-- The only fault of a literal that has a column is that it meets its complement. -/
theorem literalFault?_eq_some_iff_of_covered (covered : l.var ∈ columns) :
    literalFault? columns policy clause before l = some cause ↔
      (policy = .reject ∧ l.complement ∈ before) ∧ .inconsistentClause clause l.var = cause := by
  simp [literalFault?, covered]

/-- A literal without a fault makes no pair where pairs are refused. -/
theorem consistent_append_singleton
    (consistent : policy = .reject → Clause.isTautological ⟨before⟩ = false)
    (faultless : literalFault? columns policy clause before l = none) :
    policy = .reject → Clause.isTautological ⟨before ++ [l]⟩ = false := by
  intro refused
  have unpaired := (literalFault?_eq_none_iff.mp faultless).2 refused
  rw [Clause.isTautological_append_of_complement_not_mem unpaired, consistent refused]

/-- Literals have no fault when they all have columns and, where pairs are
refused, make no pair among themselves and with those before them. -/
theorem clauseFault?_eq_none_iff
    (consistent : policy = .reject → Clause.isTautological ⟨before⟩ = false) :
    clauseFault? columns policy clause before literals = none ↔
      (∀ l ∈ literals, l.var ∈ columns) ∧
        (policy = .reject → Clause.isTautological ⟨before ++ literals⟩ = false) := by
  induction literals generalizing before with
  | nil => simpa [clauseFault?] using consistent
  | cons l rest ih =>
      have regroup : before ++ l :: rest = before ++ [l] ++ rest := by simp
      rw [clauseFault?, Option.or_eq_none_iff, regroup]
      apply Iff.intro
      · intro allFaultless
        rcases allFaultless with ⟨faultless, restFaultless⟩
        have onward := (ih (consistent_append_singleton consistent faultless)).mp restFaultless
        refine ⟨List.forall_mem_cons.mpr ⟨?_, onward.1⟩, onward.2⟩
        exact (literalFault?_eq_none_iff.mp faultless).1
      · intro conditions
        rcases conditions with ⟨covered, unpaired⟩
        obtain ⟨coveredFirst, coveredRest⟩ := List.forall_mem_cons.mp covered
        have faultless : literalFault? columns policy clause before l = none := by
          apply literalFault?_eq_none_iff.mpr
          refine ⟨coveredFirst, fun refused paired => ?_⟩
          have tautological : Clause.isTautological ⟨before ++ [l] ++ rest⟩ = true :=
            Clause.isTautological_iff.mpr ⟨l, by simp, by simp [paired]⟩
          exact Bool.false_ne_true ((unpaired refused).symm.trans tautological)
        exact ⟨faultless,
          (ih (consistent_append_singleton consistent faultless)).mpr ⟨coveredRest, unpaired⟩⟩

/-- A fault is that of one literal, after others that have none. -/
theorem clauseFault?_eq_some_iff :
    clauseFault? columns policy clause before literals = some cause ↔
      ∃ first l rest, literals = first ++ l :: rest ∧
        clauseFault? columns policy clause before first = none ∧
        literalFault? columns policy clause (before ++ first) l = some cause := by
  induction literals generalizing before with
  | nil => simp [clauseFault?]
  | cons l rest ih =>
      rw [clauseFault?, Option.or_eq_some_iff]
      apply Iff.intro
      · intro found
        rcases found with faulty | ⟨faultless, later⟩
        · exact ⟨[], l, rest, rfl, rfl, by simpa using faulty⟩
        · obtain ⟨first, next, others, rfl, firstFaultless, faulty⟩ := ih.mp later
          refine ⟨l :: first, next, others, rfl, ?_, by simpa using faulty⟩
          rw [clauseFault?, faultless, Option.none_or, firstFaultless]
      · intro found
        rcases found with ⟨first, next, others, split, firstFaultless, faulty⟩
        cases first with
        | nil =>
            obtain ⟨rfl, rfl⟩ := List.cons.inj split
            exact Or.inl (by simpa using faulty)
        | cons head first =>
            obtain ⟨rfl, rfl⟩ := List.cons.inj split
            obtain ⟨faultless, tailFaultless⟩ := Option.or_eq_none_iff.mp firstFaultless
            exact Or.inr ⟨faultless,
              ih.mpr ⟨first, next, others, rfl, tailFaultless, by simpa using faulty⟩⟩

end literal

section put

variable {columns : List Variable} {policy : TautologyPolicy} {clause column : Nat}
  {before : List Literal} {l : Literal}

theorem exists_idxOf?_eq_some (covered : l.var ∈ columns) :
    ∃ column, columns.idxOf? l.var = some column := by
  cases found : columns.idxOf? l.var with
  | none => exact absurd covered (List.idxOf?_eq_none_iff.mp found)
  | some column => exact ⟨column, rfl⟩

theorem getElem?_of_idxOf?_eq_some (found : columns.idxOf? l.var = some column) :
    columns[column]? = some l.var := by
  obtain ⟨inside, atColumn, _⟩ := List.idxOf?_eq_some_iff.mp found
  rw [List.getElem?_eq_getElem inside, atColumn]

/-- The cell that a literal meets is that of its variable. -/
theorem cells_written (found : columns.idxOf? l.var = some column) (c : Clause) :
    (written columns c).cells[column]?.join = c.cell l.var := by
  simp [written, Clause.getElem?_row, getElem?_of_idxOf?_eq_some found]

theorem put_of_outside (outside : l.var ∉ columns) (draft : Draft columns.length) :
    put columns policy clause draft l = .error (.malformed (.outsideColumns clause l.var)) := by
  have unplaced : columns.idxOf? l.var = none := List.idxOf?_eq_none_iff.mpr outside
  simp only [put, unplaced]

/-- The first literal of a variable is written into its column. -/
theorem put_of_cell_eq_none (nodup : columns.Nodup) (covered : l.var ∈ columns)
    (absent : Clause.cell ⟨before⟩ l.var = none) :
    put columns policy clause (written columns ⟨before⟩) l =
      .ok (written columns ⟨before ++ [l]⟩) := by
  obtain ⟨column, found⟩ := exists_idxOf?_eq_some covered
  have unpaired : l.complement ∉ before := Clause.not_mem_of_cell_eq_none absent
  simp only [put, found, cells_written found, absent]
  apply congrArg Except.ok
  apply Draft.ext
  · exact Clause.set_row_of_cell_eq_none nodup (getElem?_of_idxOf?_eq_some found) absent
  · exact (Clause.isTautological_append_of_complement_not_mem unpaired).symm

/-- A literal that was written before is not written again. -/
theorem put_of_cell_eq_some (covered : l.var ∈ columns)
    (present : Clause.cell ⟨before⟩ l.var = some l.sign) :
    put columns policy clause (written columns ⟨before⟩) l =
      .ok (written columns ⟨before ++ [l]⟩) := by
  obtain ⟨column, found⟩ := exists_idxOf?_eq_some covered
  simp only [put, found, cells_written found, present, if_true]
  apply congrArg Except.ok
  apply Draft.ext
  · exact (Clause.row_append_of_cell_eq_some present columns).symm
  · exact (Clause.isTautological_append_of_mem (Clause.mem_of_cell_eq_some present)).symm

/-- A literal that meets its complement is refused, or marks the draft. -/
theorem put_of_cell_ne {sign : Sign} (covered : l.var ∈ columns)
    (present : Clause.cell ⟨before⟩ l.var = some sign) (differs : sign ≠ l.sign) :
    put columns policy clause (written columns ⟨before⟩) l =
      match policy with
      | .reject => .error (.inconsistentClause clause l.var)
      | .drop => .ok (written columns ⟨before ++ [l]⟩) := by
  obtain ⟨column, found⟩ := exists_idxOf?_eq_some covered
  simp only [put, found, cells_written found, present, if_neg differs]
  cases policy with
  | reject => rfl
  | drop =>
      apply congrArg Except.ok
      apply Draft.ext
      · exact (Clause.row_append_of_cell_eq_some present columns).symm
      · have paired : l.complement ∈ before := Clause.complement_mem_of_cell_ne present differs
        exact (Clause.isTautological_append_singleton_iff.mpr (Or.inr paired)).symm

/-- Writing one literal more: it is at fault, or the draft is that of one literal
more. Where pairs are refused, none may have been written before. -/
theorem put_written (nodup : columns.Nodup)
    (consistent : policy = .reject → Clause.isTautological ⟨before⟩ = false) :
    put columns policy clause (written columns ⟨before⟩) l =
      okUnless (literalFault? columns policy clause before l)
        (written columns ⟨before ++ [l]⟩) := by
  by_cases covered : l.var ∈ columns
  · cases occupied : Clause.cell ⟨before⟩ l.var with
    | none =>
        have unpaired : l.complement ∉ before := Clause.not_mem_of_cell_eq_none occupied
        rw [put_of_cell_eq_none nodup covered occupied]
        simp [literalFault?, covered, unpaired, okUnless]
    | some sign =>
        by_cases same : sign = l.sign
        · subst same
          have unpaired : ¬ (policy = .reject ∧ l.complement ∈ before) := by
            intro refusedPair
            rcases refusedPair with ⟨refused, paired⟩
            have repeated : l ∈ before := Clause.mem_of_cell_eq_some occupied
            have tautological := Clause.isTautological_iff.mpr ⟨l, repeated, paired⟩
            simp [consistent refused] at tautological
          rw [put_of_cell_eq_some covered occupied]
          simp [literalFault?, covered, unpaired, okUnless]
        · have paired : l.complement ∈ before := Clause.complement_mem_of_cell_ne occupied same
          rw [put_of_cell_ne covered occupied same]
          cases policy <;> simp [literalFault?, covered, paired, okUnless]
  · rw [put_of_outside covered]
    simp [literalFault?, covered, okUnless]

/-- Writing literals after others fails with the first fault among them. -/
theorem foldlM_put_written (nodup : columns.Nodup) {before : List Literal}
    (consistent : policy = .reject → Clause.isTautological ⟨before⟩ = false)
    (literals : List Literal) :
    literals.foldlM (put columns policy clause) (written columns ⟨before⟩) =
      okUnless (clauseFault? columns policy clause before literals)
        (written columns ⟨before ++ literals⟩) := by
  induction literals generalizing before with
  | nil =>
      rw [List.append_nil]
      rfl
  | cons l rest ih =>
      rw [List.foldlM_cons, put_written nodup consistent, clauseFault?]
      cases faulty : literalFault? columns policy clause before l with
      | some cause => rfl
      | none =>
          have onward := ih (consistent_append_singleton consistent faulty)
          rw [List.append_assoc, List.singleton_append] at onward
          exact onward

end put

/-- Encoding a clause: its first fault, or its draft. -/
theorem ofClause_eq {columns : List Variable} (nodup : columns.Nodup) (policy : TautologyPolicy)
    (clause : Nat) (c : Clause) :
    ofClause columns policy clause c =
      okUnless (clauseFault? columns policy clause [] c.literals) (written columns c) := by
  rw [ofClause, empty_eq_written]
  exact foldlM_put_written nodup (fun _ => rfl) c.literals

end Draft

namespace Formula

/-- The first fault of a formula. -/
def fault? (columns : List Variable) (policy : TautologyPolicy) (f : Formula) :
    Option FormulaError :=
  f.clauses.zipIdx.findSome? fun (c, clause) =>
    Draft.clauseFault? columns policy clause [] c.literals

/-- A formula has no fault when all its variables have columns and, where pairs
are refused, none of its clauses is tautological. -/
theorem fault?_eq_none_iff {columns : List Variable} {policy : TautologyPolicy} {f : Formula} :
    f.fault? columns policy = none ↔
      (∀ c ∈ f.clauses, ∀ l ∈ c.literals, l.var ∈ columns) ∧
        (policy = .reject → ∀ c ∈ f.clauses, c.isTautological = false) := by
  have numbered (holds : Clause → Prop) :
      (∀ p ∈ f.clauses.zipIdx, holds p.1) ↔ ∀ c ∈ f.clauses, holds c := by
    rw [← List.forall_mem_map, List.zipIdx_map_fst]
  have faultless (p : Clause × Nat) :
      Draft.clauseFault? columns policy p.2 [] p.1.literals = none ↔
        (∀ l ∈ p.1.literals, l.var ∈ columns) ∧ (policy = .reject → p.1.isTautological = false) :=
    Draft.clauseFault?_eq_none_iff fun _ => rfl
  simp only [fault?, List.findSome?_eq_none_iff, faultless]
  rw [numbered fun c => (∀ l ∈ c.literals, l.var ∈ columns) ∧
    (policy = .reject → c.isTautological = false)]
  apply Iff.intro
  · intro each
    exact ⟨fun c present => (each c present).1,
      fun refused c present => (each c present).2 refused⟩
  · intro conditions c present
    exact ⟨conditions.1 c present, fun refused => conditions.2 refused c present⟩

/-- Where all variables have columns, a fault names a clause and a variable that
the clause holds in both ways. -/
theorem exists_both_of_fault?_eq_some {columns : List Variable} {policy : TautologyPolicy}
    {f : Formula} {cause : FormulaError}
    (covered : ∀ c ∈ f.clauses, ∀ l ∈ c.literals, l.var ∈ columns)
    (faulty : f.fault? columns policy = some cause) :
    ∃ clause c v, f.clauses[clause]? = some c ∧ .positive v ∈ c.literals ∧
      .negative v ∈ c.literals ∧ cause = .inconsistentClause clause v := by
  obtain ⟨⟨c, clause⟩, numbered, faultyClause⟩ := List.exists_of_findSome?_eq_some faulty
  have place : f.clauses[clause]? = some c := List.mk_mem_zipIdx_iff_getElem?.mp numbered
  have present : c ∈ f.clauses := List.mem_of_getElem? place
  obtain ⟨first, l, rest, split, -, faultyLiteral⟩ :=
    Draft.clauseFault?_eq_some_iff.mp faultyClause
  have inClause : l ∈ c.literals := by simp [split]
  rw [List.nil_append] at faultyLiteral
  obtain ⟨⟨-, paired⟩, rfl⟩ :=
    (Draft.literalFault?_eq_some_iff_of_covered (covered c present l inClause)).mp faultyLiteral
  have complementInClause : l.complement ∈ c.literals := by simp [split, paired]
  refine ⟨clause, c, l.var, place, ?_⟩
  obtain ⟨sign, v⟩ := l
  cases sign with
  | positive => exact ⟨inClause, complementInClause, rfl⟩
  | negative => exact ⟨complementInClause, inClause, rfl⟩

/-- The rows of the clauses that are not tautological. -/
def matrix (columns : List Variable) (f : Formula) : ClauseMatrix where
  width := columns.length
  rows := (f.clauses.filter fun c => !c.isTautological).map fun c => c.row columns
  length_row := by
    intro row present
    obtain ⟨c, _, rfl⟩ := List.mem_map.mp present
    exact c.length_row columns

theorem mem_rows_matrix {columns : List Variable} {f : Formula} {row : Row} :
    row ∈ (f.matrix columns).rows ↔
      ∃ c ∈ f.clauses, c.isTautological = false ∧ c.row columns = row := by
  simp [matrix, and_assoc]

end Formula

namespace ClauseMatrix

theorem ofDrafts_written (columns : List Variable) (f : Formula) :
    ofDrafts (f.clauses.map (Draft.written columns)) = f.matrix columns := by
  simp [ofDrafts, Formula.matrix, List.filter_map, Draft.written, Function.comp_def]

/-- Encoding a formula: its first fault, or its matrix. -/
theorem encode_eq {columns : List Variable} (sorted : Variable.ascending columns = true)
    (f : Formula) (policy : TautologyPolicy) :
    encode columns f policy = okUnless (f.fault? columns policy) (f.matrix columns) := by
  have nodup := Variable.nodup_of_ascending sorted
  have drafted : (Encoding.drafts columns f policy).mapM id =
      okUnless (f.fault? columns policy) (f.clauses.map (Draft.written columns)) := by
    have pieces : (f.clauses.zipIdx.map fun (c, _) => Draft.written columns c) =
        f.clauses.map (Draft.written columns) := by
      have firsts := congrArg (List.map (Draft.written columns)) (List.zipIdx_map_fst 0 f.clauses)
      rwa [List.map_map] at firsts
    simp only [Encoding.drafts, List.mapM_map, Function.comp_def, id, Draft.ofClause_eq nodup]
    rw [← pieces]
    exact mapM_okUnless _ _ _
  simp only [encode, Encoding.ofFormula, sorted, if_true, drafted, map_okUnless, ofDrafts_written]

theorem encode_of_not_ascending {columns : List Variable}
    (unsorted : Variable.ascending columns = false) (f : Formula) (policy : TautologyPolicy) :
    encode columns f policy = .error (.malformed .columnsNotAscending) := by
  simp [encode, Encoding.ofFormula, unsorted]

/-- When a formula can be encoded against given columns, and what comes of it. -/
theorem encode_eq_ok_iff {columns : List Variable} {f : Formula} {policy : TautologyPolicy}
    {m : ClauseMatrix} :
    encode columns f policy = .ok m ↔
      Variable.ascending columns = true ∧ (∀ c ∈ f.clauses, ∀ l ∈ c.literals, l.var ∈ columns) ∧
        (policy = .reject → ∀ c ∈ f.clauses, c.isTautological = false) ∧ f.matrix columns = m := by
  cases order : Variable.ascending columns with
  | false => simp [encode_of_not_ascending order]
  | true =>
      rw [encode_eq order, okUnless_eq_ok_iff, Formula.fault?_eq_none_iff, and_assoc]
      simp

end ClauseMatrix

end Clausal
