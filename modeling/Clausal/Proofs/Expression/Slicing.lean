/-
# Cutting by bytes

The parentheses of a clause are taken off a list of characters. On an encoded text the same is
done by a byte position: the opening parenthesis is left out, and what follows is cut one byte
before its end. Such a cut can fail in two ways. There may be no byte to spare, and the position
may lie within a character that takes several bytes. Neither happens where the text ends with a
parenthesis of its own, other than the one that it begins with.
-/

import Clausal.Expression.Parser

namespace Clausal.Expression

/-- The text before a byte position, which must be a boundary between two characters. -/
def sliceTo? (text : String) (stop : Nat) : Option String :=
  if boundary : (⟨stop⟩ : String.Pos.Raw).IsValid text then
    some (text.sliceTo ⟨⟨stop⟩, boundary⟩).copy
  else none

/-- The text up to its last byte, which must be there and be a character of its own. -/
def dropLastByte? (text : String) : Option String :=
  if text.utf8ByteSize = 0 then none else sliceTo? text (text.utf8ByteSize - 1)

/-- Take off the parentheses of a clause by cutting its text. The outer result is absent where
the cut is not possible. -/
def unwrapByCut (text : List Char) : Option (Option (List Char)) :=
  match text with
  | '(' :: rest =>
      if text.getLast? = some ')' then
        (dropLastByte? (String.ofList rest)).map fun body => some body.toList
      else some none
  | _ => if text.getLast? = some ')' then some none else some (some text)

theorem sliceTo?_append (first rest : String) :
    sliceTo? (first ++ rest) first.utf8ByteSize = some first := by
  have boundary : (⟨first.utf8ByteSize⟩ : String.Pos.Raw).IsValid (first ++ rest) :=
    String.Pos.Raw.isValid_iff_exists_append.mpr ⟨first, rest, rfl, rfl⟩
  rw [sliceTo?, dif_pos boundary, String.copy_sliceTo_eq_iff_exists_splits.mpr ⟨rest, rfl, rfl⟩]

/-- A last character of one byte can be cut off. -/
theorem dropLastByte?_append_singleton (body : List Char) {last : Char}
    (oneByte : last.utf8Size = 1) :
    dropLastByte? (String.ofList (body ++ [last])) = some (String.ofList body) := by
  have size : (String.ofList (body ++ [last])).utf8ByteSize =
      (String.ofList body).utf8ByteSize + 1 := by
    simp [String.ofList_append, oneByte]
  rw [dropLastByte?, if_neg (by omega), size, Nat.add_sub_cancel, String.ofList_append]
  exact sliceTo?_append _ _

/-- A cut fails within a character of two bytes, and where there is nothing to cut off. -/
example : dropLastByte? "1é" = none ∧ dropLastByte? "" = none := by decide

/-- A text that begins with a parenthesis ends with another if what follows does. -/
theorem getLast?_cons_opening_eq_some_iff (rest : List Char) :
    ('(' :: rest).getLast? = some ')' ↔ rest.getLast? = some ')' := by
  cases rest with
  | nil => decide
  | cons c rest => rw [List.getLast?_cons_cons]

/-- The cut is possible whatever the text, and it takes off the parentheses. -/
theorem unwrapByCut_eq (text : List Char) : unwrapByCut text = some (unwrap? text) := by
  unfold unwrapByCut
  split
  case h_1 rest =>
      rw [unwrap?]
      simp only [getLast?_cons_opening_eq_some_iff]
      by_cases closes : rest.getLast? = some ')'
      · obtain ⟨body, rfl⟩ := List.getLast?_eq_some_iff.mp closes
        have cut := dropLastByte?_append_singleton body (by decide : ')'.utf8Size = 1)
        rw [if_pos closes, if_pos closes, cut, List.dropLast_concat, Option.map_some,
          String.toList_ofList]
      · rw [if_neg closes, if_neg closes]
  case h_2 unopened =>
      rw [unwrap?.eq_2 text unopened]
      by_cases closes : text.getLast? = some ')'
      · rw [if_pos closes, if_pos closes]
      · rw [if_neg closes, if_neg closes]

end Clausal.Expression
