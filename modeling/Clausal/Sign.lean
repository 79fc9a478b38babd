/-
# Signs

A literal is a variable or its negation, and an assignment makes a variable
true or false. Both are the same two-valued choice, a sign: a literal is true
exactly when the assignment gives its variable the sign that the literal has.
-/

namespace Clausal

/-- The polarity of a literal, and equally the value an assignment chooses. -/
inductive Sign where
  | negative
  | positive
deriving DecidableEq, Repr

namespace Sign

/-- The sign of the literals that a truth value makes true. -/
def ofBool : Bool → Sign
  | true => positive
  | false => negative

/-- The truth value that satisfies the literals of this sign. -/
def toBool : Sign → Bool
  | positive => true
  | negative => false

/-- The sign of the complementary literal. -/
def opposite : Sign → Sign
  | positive => negative
  | negative => positive

/-- Signs are written as plus and minus one, so that absence can be zero. -/
def toInt : Sign → Int
  | positive => 1
  | negative => -1

@[simp]
theorem ofBool_toBool (sign : Sign) : ofBool sign.toBool = sign := by
  cases sign <;> rfl

theorem ofBool_eq_iff {value : Bool} {sign : Sign} :
    ofBool value = sign ↔ value = sign.toBool := by
  cases value <;> cases sign <;> simp [ofBool, toBool]

@[simp]
theorem opposite_opposite (sign : Sign) : sign.opposite.opposite = sign := by
  cases sign <;> rfl

end Sign

end Clausal
