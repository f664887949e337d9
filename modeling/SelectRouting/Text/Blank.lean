import SelectRouting.Text.CharRange

/-!
# Blank characters

White space by the Unicode property of that name, and texts without it at their ends.
-/

namespace SelectRouting.Text

/-- The blank characters beyond ASCII. -/
def blankRanges : List CharRange :=
  [ (0x85, 0x85), (0xA0, 0xA0), (0x1680, 0x1680), (0x2000, 0x200A), (0x2028, 0x2029),
    (0x202F, 0x202F), (0x205F, 0x205F), (0x3000, 0x3000)
  ]

/-- The character has the property White_Space. -/
def isBlank (c : Char) : Bool :=
  if isAscii c then c == ' ' || (9 ≤ c.toNat && c.toNat ≤ 13) else inRanges blankRanges c

/-- The text without the blank characters at its two ends. -/
def trim (text : String) : String :=
  String.ofList ((text.toList.dropWhile isBlank).reverse.dropWhile isBlank).reverse

end SelectRouting.Text
