/-
# Enumeration

The plainest procedure: evaluate the formula itself under every valuation of
its variables. It knows nothing of matrices, which makes it a reference for the
searches that run on them.
-/

import Clausal.Formula.Truth
import Clausal.Verdict

namespace Clausal

/-- The most variables whose valuations are enumerated. -/
def Formula.enumerationLimit : Nat := 15

/-- The valuation that a number stands for: the lowest bit is the value of the
first variable. -/
def Valuation.ofBits (vs : List Variable) (bits : Nat) : Valuation :=
  fun v => bits.testBit (vs.idxOf v)

/-- A formula has too many variables to enumerate their valuations. -/
structure TooManyVariables where
  count : Nat
deriving DecidableEq

/-- The wording is that of the broken condition. -/
def TooManyVariables.message (_ : TooManyVariables) : String :=
  s!"assertion failed: universe.len() <= {Formula.enumerationLimit}"

/-- Evaluate under all valuations of the formula's variables. -/
def Formula.enumerate (f : Formula) : Except TooManyVariables Verdict :=
  let vs := f.vars
  if vs.length ≤ Formula.enumerationLimit then
    .ok (Verdict.ofBool ((List.range (1 <<< vs.length)).any fun bits =>
      f.eval (Valuation.ofBits vs bits)))
  else
    .error ⟨vs.length⟩

end Clausal
