/-
# Trimming

A text is its trimmed form with blanks on both sides, and a text that neither
begins nor ends with a blank is the trimmed form of itself with any blanks around
it. With these two facts a reader that trims can be compared with a grammar in
which blanks are written out.
-/

import Clausal.Text.Blank

namespace Clausal.Text

/-- The text neither begins nor ends with a blank. -/
structure Tight (text : List Char) : Prop where
  head : ∀ c ∈ text.head?, isBlank c = false
  last : ∀ c ∈ text.getLast?, isBlank c = false

variable {before text after : List Char}

theorem isBlank_eq_false_of_isDigit {c : Char} (digit : c.isDigit = true) : isBlank c = false := by
  simp only [Char.isDigit, Bool.and_eq_true, decide_eq_true_eq, UInt32.le_iff_toNat_le] at digit
  have first : 48 ≤ c.toNat := digit.1
  have last : c.toNat ≤ 57 := digit.2
  simp only [isBlank, blankRanges, List.any_cons, List.any_nil, Bool.or_false, Bool.or_eq_false_iff,
    Bool.and_eq_false_iff, decide_eq_false_iff_not]
  omega

theorem trimStart_append_of_blanks (blank : ∀ c ∈ before, isBlank c = true) (text : List Char) :
    trimStart (before ++ text) = trimStart text :=
  List.dropWhile_append_of_pos blank

theorem trimStart_eq_self (head : ∀ c ∈ text.head?, isBlank c = false) : trimStart text = text := by
  cases text with
  | nil => rfl
  | cons first rest => exact List.dropWhile_cons_of_neg (by simpa using head)

theorem trimEnd_append_of_blanks (blank : ∀ c ∈ after, isBlank c = true) (text : List Char) :
    trimEnd (text ++ after) = trimEnd text := by
  have blankReversed : ∀ c ∈ after.reverse, isBlank c = true := by simpa using blank
  rw [trimEnd, List.reverse_append, trimStart_append_of_blanks blankReversed]
  rfl

theorem trimEnd_eq_self (last : ∀ c ∈ text.getLast?, isBlank c = false) : trimEnd text = text := by
  have head : ∀ c ∈ text.reverse.head?, isBlank c = false := by simpa using last
  rw [trimEnd, trimStart_eq_self head, List.reverse_reverse]

/-- Trimming takes off all blanks around a text and nothing of the text. -/
theorem trim_of_tight (blankBefore : ∀ c ∈ before, isBlank c = true)
    (blankAfter : ∀ c ∈ after, isBlank c = true) (tight : Tight text) :
    trim (before ++ text ++ after) = text := by
  rw [trim, List.append_assoc, trimStart_append_of_blanks blankBefore]
  cases text with
  | nil =>
      have allBlank : trimStart (after ++ []) = [] := trimStart_append_of_blanks blankAfter []
      rw [List.append_nil] at allBlank
      rw [List.nil_append, allBlank]
      rfl
  | cons first rest =>
      rw [trimStart_eq_self (by simpa using tight.head), trimEnd_append_of_blanks blankAfter,
        trimEnd_eq_self tight.last]

theorem trim_eq_self (tight : Tight text) : trim text = text := by
  rw [trim, trimStart_eq_self tight.head, trimEnd_eq_self tight.last]

theorem exists_eq_append_trimStart (text : List Char) :
    ∃ before, (∀ c ∈ before, isBlank c = true) ∧ text = before ++ trimStart text := by
  refine ⟨text.takeWhile isBlank, ?_, List.takeWhile_append_dropWhile.symm⟩
  exact List.all_eq_true.mp List.all_takeWhile

theorem exists_eq_trimEnd_append (text : List Char) :
    ∃ after, (∀ c ∈ after, isBlank c = true) ∧ text = trimEnd text ++ after := by
  obtain ⟨before, blank, split⟩ := exists_eq_append_trimStart text.reverse
  refine ⟨before.reverse, by simpa using blank, ?_⟩
  rw [trimEnd, ← List.reverse_append, ← split, List.reverse_reverse]

/-- A text is what trimming leaves of it, with blanks around. -/
theorem exists_eq_append_trim (text : List Char) :
    ∃ before after, (∀ c ∈ before, isBlank c = true) ∧ (∀ c ∈ after, isBlank c = true) ∧
      text = before ++ trim text ++ after := by
  obtain ⟨before, blankBefore, start⟩ := exists_eq_append_trimStart text
  obtain ⟨after, blankAfter, finish⟩ := exists_eq_trimEnd_append (trimStart text)
  refine ⟨before, after, blankBefore, blankAfter, ?_⟩
  rw [trim, List.append_assoc, ← finish, ← start]

end Clausal.Text
