/-
# Blanks

Where a text may be cut into words, and what may be trimmed off its ends. A
blank is a character with the Unicode property White_Space; there are 25 of
them, in ten ranges.
-/

namespace Clausal.Text

/-- The ranges of code points with the property White_Space, ends included. -/
def blankRanges : List (Nat × Nat) :=
  [(0x09, 0x0D), (0x20, 0x20), (0x85, 0x85), (0xA0, 0xA0), (0x1680, 0x1680),
    (0x2000, 0x200A), (0x2028, 0x2029), (0x202F, 0x202F), (0x205F, 0x205F), (0x3000, 0x3000)]

def isBlank (c : Char) : Bool :=
  blankRanges.any fun (first, last) => first ≤ c.toNat && c.toNat ≤ last

/-- Leave out the blanks at the start. -/
def trimStart (text : List Char) : List Char :=
  text.dropWhile isBlank

/-- Leave out the blanks at the end. -/
def trimEnd (text : List Char) : List Char :=
  (trimStart text.reverse).reverse

/-- Leave out the blanks at both ends. -/
def trim (text : List Char) : List Char :=
  trimEnd (trimStart text)

/-- The longest runs of characters that are not blank, in order. -/
def words (text : List Char) : List (List Char) :=
  (text.splitOnP isBlank).filter fun word => !word.isEmpty

end Clausal.Text
