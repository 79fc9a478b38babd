/-
# Places in rows and in texts

Three functions go to a place that they have worked out: the encoder writes a cell in the column
of a variable, a call of the case split reads the rows left in its column, and the reader of
expressions cuts the parentheses off a clause. None of these places is outside of what it is a
place in. For the rows this is because all matrices, from whatever they are made, are as wide in
each row as they say, and the rows left in a call are rows of its matrix. For the text it is
because the parenthesis at its end is one byte, and not the one at its beginning.
-/

import Clausal.Proofs.Expression.Slicing
import Clausal.Proofs.Matrix.Access
import Clausal.Proofs.Search.Calls

namespace Clausal

namespace ClauseMatrix

theorem splitWithin_width (m : ClauseMatrix) :
    splitWithin m.width m.width 0 m.rows = .ok m.split :=
  splitWithin_of_even (Nat.zero_add m.width) m.length_row

theorem bareEncode_ne_outOfRange (columns : List Variable) (f : Formula) (policy : TautologyPolicy)
    (column cells : Nat) : bareEncode columns f policy ≠ .error (.outOfRange column cells) := by
  rw [bareEncode_eq]
  cases encode columns f policy <;> simp [inRange]

/-- A matrix made of given rows has them as its rows, each with one cell for each column, and
rows with which that cannot be are refused for the first of them that is too short or too long.
A matrix made of a formula has one cell for each column in each row, though no row is measured:
an encoder that asks before each access never asks for a place behind the end of a row. In the
case split of a matrix no call is made on a column behind the last, a call that still has a
column reads only rows that have a cell there, and so a split that asks before each access is
the split. Taking the parentheses off a clause is a cut between two characters, whatever the
clause. -/
theorem places_are_in_range :
    (∀ width rows,
      (∀ m, ofRows width rows = .ok m ↔
        (∀ row ∈ rows, row.length = width) ∧ m.width = width ∧ m.rows = rows) ∧
      ∀ cause, ofRows width rows = .error cause ↔
        ∃ i row, rows[i]? = some row ∧ row.length ≠ width ∧
          (∀ j < i, ∀ earlier, rows[j]? = some earlier → earlier.length = width) ∧
            cause = .raggedRow i row.length width) ∧
      (∀ i cells width, (Malformed.raggedRow i cells width).reason =
        s!"row {i} has {cells} columns, expected {width}") ∧
      (∀ columns f policy,
        (∀ column cells, bareEncode columns f policy ≠ .error (.outOfRange column cells)) ∧
        bareEncode columns f policy =
          inRange (fun m : ClauseMatrix => (m.width, m.rows)) (encode columns f policy) ∧
        ∀ width rows, bareEncode columns f policy = .ok (width, rows) →
          width = columns.length ∧ ∀ row ∈ rows, row.length = width) ∧
      (∀ m : ClauseMatrix,
        (∀ path rows, m.Calls path rows →
          path.length ≤ m.width ∧ (∀ row ∈ rows, row.length = m.width) ∧
            (path.length ≠ m.width → ∀ row ∈ rows, path.length < row.length)) ∧
        splitWithin m.width m.width 0 m.rows = .ok m.split) ∧
      ∀ text, Expression.unwrapByCut text = some (Expression.unwrap? text) := by
  refine ⟨fun width rows => ⟨fun m => ofRows_eq_ok_iff, fun cause => ofRows_eq_error_iff⟩,
    fun i cells width => rfl, fun columns f policy => ⟨?_, ?_, ?_⟩, fun m => ⟨?_, ?_⟩, ?_⟩
  · exact bareEncode_ne_outOfRange columns f policy
  · exact bareEncode_eq columns f policy
  · intro width rows encoded
    exact length_of_bareEncode_eq_ok encoded
  · intro path rows called
    refine ⟨called.length_le, called.length_row, fun columnsLeft row left => ?_⟩
    rw [called.length_row row left]
    exact Nat.lt_of_le_of_ne called.length_le columnsLeft
  · exact m.splitWithin_width
  · exact Expression.unwrapByCut_eq

end ClauseMatrix

end Clausal
