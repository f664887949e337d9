/-!
# Ranges of characters

A property of characters beyond ASCII is a list of ranges of code points, both ends included, in
ascending order.
-/

namespace SelectRouting.Text

/-- The code points from the first to the second, both included. -/
abbrev CharRange := Nat × Nat

/-- The character lies in one of the ranges. -/
def inRanges (ranges : List CharRange) (c : Char) : Bool :=
  ranges.any fun (first, last) => first ≤ c.toNat && c.toNat ≤ last

/-- The character is an ASCII character. -/
def isAscii (c : Char) : Bool :=
  c.toNat < 128

end SelectRouting.Text
