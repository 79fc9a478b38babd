/-
# Numbers with fixed decimal places

How a floating-point number is written with a fixed number of decimal places:
its exact value, which is a fraction with a power of two below, is rounded to
the nearest number that has these places, and a tie goes to the even one.
-/

namespace Clausal.Text

/-- The integer nearest to a quotient, the even one of two equally near. -/
def roundQuotient (numerator denominator : Nat) : Nat :=
  let quotient := numerator / denominator
  let remainder := numerator % denominator
  if 2 * remainder < denominator then quotient
  else if denominator < 2 * remainder then quotient + 1
  else quotient + quotient % 2

/-- The exact value of a non-negative finite number as a fraction. -/
def fractionOf (value : Float) : Nat × Nat :=
  let bits := value.toBits.toNat
  let exponent := (bits >>> 52) &&& 0x7FF
  let mantissa := bits &&& 0xFFFFFFFFFFFFF
  if exponent = 0 then (mantissa, 1 <<< 1074)
  else ((0x10000000000000 + mantissa) <<< (exponent - 1075), 1 <<< (1075 - exponent))

/-- A count of the smallest unit shown, with the decimal point put in. -/
def writeScaled (places count : Nat) : String :=
  let unit := Nat.pow 10 places
  let decimals := toString (count % unit)
  let zeros := String.ofList (List.replicate (places - decimals.length) '0')
  toString (count / unit) ++ "." ++ zeros ++ decimals

/-- A non-negative finite number with a fixed number of decimal places. -/
def writeFixed (places : Nat) (value : Float) : String :=
  let (numerator, denominator) := fractionOf value
  writeScaled places (roundQuotient (numerator * Nat.pow 10 places) denominator)

end Clausal.Text
