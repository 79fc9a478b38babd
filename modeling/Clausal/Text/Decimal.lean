/-
# Decimal numbers

Numbers are written with ASCII digits only and fit into 64 bits. A number that
is too large is not a number, and leading zeros do not matter.
-/

namespace Clausal.Text

/-- The value of a run of ASCII digits, which must not be empty. -/
def digits? (text : List Char) : Option Nat :=
  if !text.isEmpty && text.all Char.isDigit then some (Nat.ofDigitChars 10 text 0) else none

/-- An unsigned number below 2^64. A plus sign may stand in front of it. -/
def unsigned? (text : List Char) : Option Nat :=
  let magnitude := match text with
    | '+' :: rest => digits? rest
    | _ => digits? text
  magnitude.filter fun n => n < UInt64.size

theorem lt_of_unsigned? {text : List Char} {n : Nat} (written : unsigned? text = some n) :
    n < UInt64.size := by
  simpa using (Option.filter_eq_some_iff.mp written).2

/-- Half the number of values of 64 bits, which is 2^63. -/
def signedLimit : Int := 0x8000000000000000

/-- A signed number from -2^63 up to, but not including, 2^63. -/
def signed? (text : List Char) : Option Int :=
  let value := match text with
    | '+' :: rest => (digits? rest).map Int.ofNat
    | '-' :: rest => (digits? rest).map fun n => -Int.ofNat n
    | _ => (digits? text).map Int.ofNat
  value.filter fun n => -signedLimit ≤ n && n < signedLimit

end Clausal.Text
