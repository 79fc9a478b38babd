/-
# Reading numerals

Reading a number finds the one that is written, as long as it fits into 64 bits,
and fails on every text that writes none. A text writes at most one number, since
a sign is no digit.
-/

import Clausal.Text.Decimal
import Clausal.Text.Numeral
import Mathlib.Algebra.Group.Int.Defs
import Mathlib.Algebra.Group.Nat.Defs
import Mathlib.Tactic.Common

namespace Clausal.Text

variable {text : List Char}

/-- A text that begins with a sign is no run of digits. -/
theorem not_writesDigits_cons {c : Char} (noDigit : c.isDigit = false) {n : Nat} :
    ¬ WritesDigits (c :: text) n := by
  intro written
  have digit := written.digits c List.mem_cons_self
  exact Bool.false_ne_true (noDigit.symm.trans digit)

theorem writesNatural_plus_iff {n : Nat} :
    WritesNatural ('+' :: text) n ↔ WritesDigits text n := by
  apply Iff.intro
  · intro written
    cases written with
    | bare written => exact absurd written (not_writesDigits_cons rfl)
    | plus written => exact written
  · exact WritesNatural.plus

theorem writesInteger_plus_iff {z : Int} :
    WritesInteger ('+' :: text) z ↔ ∃ n : Nat, WritesDigits text n ∧ n = z := by
  apply Iff.intro
  · intro written
    cases written with
    | bare written => exact absurd written (not_writesDigits_cons rfl)
    | plus written => exact ⟨_, written, rfl⟩
  · rintro ⟨n, written, rfl⟩
    exact .plus written

theorem writesInteger_minus_iff {z : Int} :
    WritesInteger ('-' :: text) z ↔ ∃ n : Nat, WritesDigits text n ∧ -n = z := by
  apply Iff.intro
  · intro written
    cases written with
    | bare written => exact absurd written (not_writesDigits_cons rfl)
    | minus written => exact ⟨_, written, rfl⟩
  · rintro ⟨n, written, rfl⟩
    exact .minus written

theorem writesInteger_iff_of_unsigned (noPlus : ∀ rest, text ≠ '+' :: rest)
    (noMinus : ∀ rest, text ≠ '-' :: rest) {z : Int} :
    WritesInteger text z ↔ ∃ n : Nat, WritesDigits text n ∧ n = z := by
  apply Iff.intro
  · intro written
    cases written with
    | bare written => exact ⟨_, written, rfl⟩
    | plus written => exact absurd rfl (noPlus _)
    | minus written => exact absurd rfl (noMinus _)
  · rintro ⟨n, written, rfl⟩
    exact .bare written

theorem digits?_eq_some_iff {n : Nat} : digits? text = some n ↔ WritesDigits text n := by
  rw [digits?, Option.ite_none_right_eq_some, Option.some_inj]
  simp only [Bool.and_eq_true, Bool.not_eq_true', List.isEmpty_eq_false_iff, List.all_eq_true]
  apply Iff.intro
  · intro read
    exact ⟨read.1.1, read.1.2, read.2⟩
  · intro written
    exact ⟨⟨written.nonempty, written.digits⟩, written.value⟩

/-- An unsigned number is read exactly where one below 2^64 is written. -/
theorem unsigned?_eq_some_iff {n : Nat} :
    unsigned? text = some n ↔ WritesNatural text n ∧ n < 2 ^ 64 := by
  unfold unsigned?
  rw [Option.filter_eq_some_iff, decide_eq_true_eq, UInt64.size]
  apply and_congr_left'
  split
  case h_1 rest => rw [digits?_eq_some_iff, writesNatural_plus_iff]
  case h_2 noPlus =>
      rw [digits?_eq_some_iff]
      apply Iff.intro
      · exact WritesNatural.bare
      · intro written
        cases written with
        | bare written => exact written
        | plus written => exact absurd rfl (noPlus _)

/-- A signed number is read exactly where one of 64 bits is written. -/
theorem signed?_eq_some_iff {z : Int} :
    signed? text = some z ↔ WritesInteger text z ∧ -2 ^ 63 ≤ z ∧ z < 2 ^ 63 := by
  unfold signed?
  rw [Option.filter_eq_some_iff, Bool.and_eq_true, decide_eq_true_eq, decide_eq_true_eq]
  apply and_congr_left'
  split
  case h_1 rest =>
      rw [Option.map_eq_some_iff, writesInteger_plus_iff]
      simp only [digits?_eq_some_iff, Int.ofNat_eq_natCast]
  case h_2 rest =>
      rw [Option.map_eq_some_iff, writesInteger_minus_iff]
      simp only [digits?_eq_some_iff, Int.ofNat_eq_natCast]
  case h_3 noPlus noMinus =>
      rw [Option.map_eq_some_iff, writesInteger_iff_of_unsigned noPlus noMinus]
      simp only [digits?_eq_some_iff, Int.ofNat_eq_natCast]

/-- The digits of a number write it. -/
theorem writesDigits_toDigits (n : Nat) : WritesDigits (Nat.toDigits 10 n) n where
  nonempty := Nat.toDigits_ne_nil
  digits := fun _ present => Nat.isDigit_of_mem_toDigits (by decide) (by decide) present
  value := Nat.ofDigitChars_ten_toDigits

theorem WritesDigits.unique {first second : Nat} (writesFirst : WritesDigits text first)
    (writesSecond : WritesDigits text second) : first = second :=
  writesFirst.value.symm.trans writesSecond.value

theorem WritesInteger.unique {first second : Int} (writesFirst : WritesInteger text first)
    (writesSecond : WritesInteger text second) : first = second := by
  cases writesFirst with
  | plus written =>
      obtain ⟨n, alsoWritten, rfl⟩ := writesInteger_plus_iff.mp writesSecond
      rw [written.unique alsoWritten]
  | minus written =>
      obtain ⟨n, alsoWritten, rfl⟩ := writesInteger_minus_iff.mp writesSecond
      rw [written.unique alsoWritten]
  | bare written =>
      cases writesSecond with
      | bare alsoWritten => rw [written.unique alsoWritten]
      | plus alsoWritten => exact absurd written (not_writesDigits_cons rfl)
      | minus alsoWritten => exact absurd written (not_writesDigits_cons rfl)

end Clausal.Text
