/-
# Encoding and decoding

A literal is in the clause read from a row exactly when its sign stands in the column of
its variable. As no variable has two columns, writing such a clause into a row puts every
sign back where it was read. So each matrix of the right width is the encoding of a
formula, and the formula read from an encoding has the clauses that were encoded, except
for the order and the repetition of literals and for tautologies.
-/

import Clausal.Matrix.Decoding
import Clausal.Proofs.Matrix.Encoding
import Mathlib.Data.List.Forall2

namespace Clausal

namespace Row

variable {columns : List Variable} {row : Row}

/-- A literal is read from the column of its variable. -/
theorem mem_decode_iff {l : Literal} :
    l ∈ (row.decode columns).literals ↔
      ∃ column : Nat, columns[column]? = some l.var ∧ row[column]? = some (some l.sign) := by
  rw [decode, List.mem_filterMap]
  simp only [List.mem_iff_getElem?, List.getElem?_zip_eq_some, Option.map_eq_some_iff]
  apply Iff.intro
  · intro found
    rcases found with ⟨⟨v, cell⟩, ⟨column, atColumn, atCell⟩, sign, written, rfl⟩
    obtain rfl : cell = some sign := written
    exact ⟨column, atColumn, atCell⟩
  · intro found
    rcases found with ⟨column, atColumn, atCell⟩
    exact ⟨(l.var, some l.sign), ⟨column, atColumn, atCell⟩, l.sign, rfl, rfl⟩

/-- There is only one column from which the literals of a variable can be read. -/
theorem getElem?_of_mem_decode (nodup : columns.Nodup) {l : Literal} {column : Nat}
    (place : columns[column]? = some l.var) (read : l ∈ (row.decode columns).literals) :
    row[column]? = some (some l.sign) := by
  obtain ⟨other, otherPlace, atCell⟩ := mem_decode_iff.mp read
  obtain ⟨inside, -⟩ := List.getElem?_eq_some_iff.mp place
  have same : column = other := (List.getElem?_inj inside nodup).mp (place.trans otherPlace.symm)
  rw [same]
  exact atCell

/-- A row has room for one sign of a variable only, so no pair is read from it. -/
theorem isTautological_decode (nodup : columns.Nodup) (row : Row) :
    (row.decode columns).isTautological = false := by
  rw [← Bool.not_eq_true, Clause.isTautological_iff]
  intro paired
  rcases paired with ⟨l, read, complementRead⟩
  obtain ⟨column, place, atCell⟩ := mem_decode_iff.mp read
  have atSameCell := getElem?_of_mem_decode nodup (l := l.complement) place complementRead
  have sameSign : l.sign = l.sign.opposite :=
    Option.some.inj (Option.some.inj (atCell.symm.trans atSameCell))
  exact l.complement_ne (congrArg (fun sign => (⟨sign, l.var⟩ : Literal)) sameSign.symm)

/-- What is read from a row has the cells of that row. -/
theorem cell_decode (nodup : columns.Nodup) {column : Nat} {v : Variable} {cell : Cell}
    (place : columns[column]? = some v) (atCell : row[column]? = some cell) :
    (row.decode columns).cell v = cell := by
  cases cell with
  | none =>
      rw [Clause.cell_eq_none_iff]
      rintro l read rfl
      have occupied := getElem?_of_mem_decode nodup place read
      cases atCell.symm.trans occupied
  | some sign =>
      have read : ⟨sign, v⟩ ∈ (row.decode columns).literals :=
        mem_decode_iff.mpr ⟨column, place, atCell⟩
      exact Clause.cell_of_mem (isTautological_decode nodup row) read

/-- Writing what was read from a row gives the row again. -/
theorem row_decode (nodup : columns.Nodup) (sameLength : row.length = columns.length) :
    (row.decode columns).row columns = row := by
  apply List.ext_getElem
  · rw [Clause.length_row, sameLength]
  · intro column inWritten inRow
    have inColumns : column < columns.length := sameLength ▸ inRow
    have place : columns[column]? = some columns[column] := List.getElem?_eq_getElem inColumns
    simp only [Clause.row, List.getElem_map]
    exact cell_decode nodup place (List.getElem?_eq_getElem inRow)

end Row

/-- What is read from the row of a clause are the literals of the clause. -/
theorem Clause.mem_decode_row_iff {columns : List Variable} {c : Clause}
    (covered : ∀ l ∈ c.literals, l.var ∈ columns) (consistent : c.isTautological = false)
    {l : Literal} : l ∈ ((c.row columns).decode columns).literals ↔ l ∈ c.literals := by
  rw [Row.mem_decode_iff]
  apply Iff.intro
  · intro found
    rcases found with ⟨column, place, atCell⟩
    rw [getElem?_row, place, Option.map_some, Option.some_inj] at atCell
    exact mem_of_cell_eq_some atCell
  · intro present
    obtain ⟨column, place⟩ := List.mem_iff_getElem?.mp (covered l present)
    refine ⟨column, place, ?_⟩
    rw [getElem?_row, place, Option.map_some, cell_of_mem consistent present]

namespace ClauseMatrix

variable {columns : List Variable} {m : ClauseMatrix}

theorem var_mem_of_mem_decode {c : Clause} (read : c ∈ (m.decode columns).clauses) :
    ∀ l ∈ c.literals, l.var ∈ columns := by
  intro l inClause
  obtain ⟨row, -, rfl⟩ := List.mem_map.mp read
  obtain ⟨column, place, -⟩ := Row.mem_decode_iff.mp inClause
  exact List.mem_of_getElem? place

theorem isTautological_of_mem_decode (nodup : columns.Nodup) {c : Clause}
    (read : c ∈ (m.decode columns).clauses) : c.isTautological = false := by
  obtain ⟨row, -, rfl⟩ := List.mem_map.mp read
  exact Row.isTautological_decode nodup row

/-- The formula read from a matrix has that matrix. -/
theorem matrix_decode (nodup : columns.Nodup) (sameWidth : m.width = columns.length) :
    (m.decode columns).matrix columns = m := by
  have noneDropped : (m.decode columns).clauses.filter (fun c => !c.isTautological) =
      (m.decode columns).clauses := by
    rw [List.filter_eq_self]
    intro c read
    rw [isTautological_of_mem_decode nodup read]
    rfl
  have rowsBack : (m.decode columns).clauses.map (fun c => c.row columns) = m.rows := by
    have cellsBack : ∀ row ∈ m.rows, (row.decode columns).row columns = id row := fun row present =>
      Row.row_decode nodup ((m.length_row row present).trans sameWidth)
    rw [decode, List.map_map]
    exact (List.map_congr_left cellsBack).trans (List.map_id _)
  rcases m with ⟨width, rows, length_row⟩
  obtain rfl : width = columns.length := sameWidth
  simp only [Formula.matrix, noneDropped, rowsBack]

/-- Every matrix with as many columns as there are variables encodes the formula that is
read from it, under either policy. And what is read from the matrix of a formula are the
clauses of the formula without a complementary pair, in their order and each with the same
literals. -/
theorem encode_decode_and_decode_encode (columns : List Variable) (policy : TautologyPolicy) :
    (columns.Pairwise (fun first second => first < second) →
      ∀ m : ClauseMatrix, m.width = columns.length →
        encode columns (m.decode columns) policy = .ok m) ∧
      ∀ (f : Formula) (m : ClauseMatrix), encode columns f policy = .ok m →
        List.Forall₂ (fun c read => ∀ l, l ∈ read.literals ↔ l ∈ c.literals)
          (f.clauses.filter fun c => !c.isTautological) (m.decode columns).clauses := by
  apply And.intro
  · intro ascending m sameWidth
    have sorted := Variable.ascending_iff_pairwise.mpr ascending
    have nodup := Variable.nodup_of_ascending sorted
    rw [encode_eq_ok_iff]
    refine ⟨sorted, ?_, ?_, matrix_decode nodup sameWidth⟩
    · intro c read
      exact var_mem_of_mem_decode read
    · intro _ c read
      exact isTautological_of_mem_decode nodup read
  · intro f m encoded
    obtain ⟨-, covered, -, rfl⟩ := encode_eq_ok_iff.mp encoded
    show List.Forall₂ _ _ (((f.clauses.filter fun c => !c.isTautological).map _).map _)
    rw [List.map_map, List.forall₂_map_right_iff, List.forall₂_same]
    intro c kept l
    obtain ⟨present, consistent⟩ := List.mem_filter.mp kept
    exact Clause.mem_decode_row_iff (covered c present) (by simpa using consistent)

/-- The empty clause and the column without a literal come back, too. Another formula with the
same matrix has a pair in its second clause, and in its first clause the literals the other way
round and one of them twice. -/
theorem encode_decode_and_decode_encode_empty_clause :
    let columns : List Variable := [.mk 2, .mk 5, .mk 7]
    let m : ClauseMatrix :=
      ⟨3, [[some .negative, none, some .positive], [none, none, none]], by decide⟩
    let f : Formula :=
      ⟨[⟨[.positive (.mk 7), .negative (.mk 2), .positive (.mk 7)]⟩,
        ⟨[.positive (.mk 5), .negative (.mk 5)]⟩, ⟨[]⟩]⟩
    (columns.Pairwise (fun first second => first < second) ∧ m.width = columns.length ∧
        m.decode columns = ⟨[⟨[.negative (.mk 2), .positive (.mk 7)]⟩, ⟨[]⟩]⟩ ∧
        ∀ policy, encode columns (m.decode columns) policy = .ok m) ∧
      encode columns f .drop = .ok m ∧
        List.Forall₂ (fun c read => ∀ l, l ∈ read.literals ↔ l ∈ c.literals)
          (f.clauses.filter fun c => !c.isTautological) (m.decode columns).clauses := by
  intro columns m f
  have ascending : columns.Pairwise fun first second => first < second := by decide
  have encoded : encode columns f .drop = .ok m := rfl
  exact ⟨⟨ascending, rfl, rfl, fun policy =>
      (encode_decode_and_decode_encode columns policy).1 ascending m rfl⟩,
    encoded, (encode_decode_and_decode_encode columns .drop).2 f m encoded⟩

end ClauseMatrix

end Clausal
