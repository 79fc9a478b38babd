/-
# Numerals

What it means that a text writes a number, said without reading it: a run of ASCII
digits, at least one, with a sign in front where one is allowed. Leading zeros are
allowed, and no number is too large to be written.
-/

namespace Clausal.Text

/-- A run of digits and its value. -/
structure WritesDigits (text : List Char) (n : Nat) : Prop where
  nonempty : text ≠ []
  digits : ∀ c ∈ text, c.isDigit = true
  value : Nat.ofDigitChars 10 text 0 = n

/-- Digits, with a plus sign in front or not. -/
inductive WritesNatural : List Char → Nat → Prop
  | bare {text : List Char} {n : Nat} (written : WritesDigits text n) : WritesNatural text n
  | plus {text : List Char} {n : Nat} (written : WritesDigits text n) :
      WritesNatural ('+' :: text) n

/-- Digits, with a plus or a minus sign in front or none. -/
inductive WritesInteger : List Char → Int → Prop
  | bare {text : List Char} {n : Nat} (written : WritesDigits text n) : WritesInteger text n
  | plus {text : List Char} {n : Nat} (written : WritesDigits text n) :
      WritesInteger ('+' :: text) n
  | minus {text : List Char} {n : Nat} (written : WritesDigits text n) :
      WritesInteger ('-' :: text) (-n)

/-- Both signs may stand in front of a zero. -/
theorem writesInteger_zero_iff {text : List Char} :
    WritesInteger text 0 ↔
      WritesDigits text 0 ∨
        ((text.head? = some '+' ∨ text.head? = some '-') ∧ WritesDigits text.tail 0) := by
  apply Iff.intro
  · intro written
    generalize value : (0 : Int) = z at written
    cases written with
    | bare written =>
        obtain rfl := Int.natCast_eq_zero.mp value.symm
        exact Or.inl written
    | plus written =>
        obtain rfl := Int.natCast_eq_zero.mp value.symm
        exact Or.inr ⟨Or.inl rfl, written⟩
    | minus written =>
        obtain rfl := Int.natCast_eq_zero.mp (Int.neg_eq_zero.mp value.symm)
        exact Or.inr ⟨Or.inr rfl, written⟩
  · intro written
    rcases written with written | ⟨signed, written⟩
    · exact .bare written
    · cases text with
      | nil => simp at signed
      | cons sign rest =>
          rcases signed with plus | minus
          · obtain rfl := Option.some_inj.mp plus
            exact .plus written
          · obtain rfl := Option.some_inj.mp minus
            exact .minus written

instance (text : List Char) (n : Nat) : Decidable (WritesDigits text n) :=
  decidable_of_iff
    ((!text.isEmpty && text.all Char.isDigit && decide (Nat.ofDigitChars 10 text 0 = n)) = true)
    (by
      simp only [Bool.and_eq_true, Bool.not_eq_true', List.isEmpty_eq_false_iff,
        List.all_eq_true, decide_eq_true_eq, and_assoc]
      exact ⟨fun written => ⟨written.1, written.2.1, written.2.2⟩,
        fun written => ⟨written.nonempty, written.digits, written.value⟩⟩)

instance (text : List Char) : Decidable (WritesInteger text 0) :=
  decidable_of_iff _ writesInteger_zero_iff.symm

end Clausal.Text
