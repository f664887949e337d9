import SelectRouting.Token

/-!
# Binding powers

How tightly the operators of an expression bind; a greater power binds more tightly. All binary
operators associate to the left, so the right power of each is one more than its left power.
-/

namespace SelectRouting.Expr

/-- The power of comparisons, `IS`, `IN`, `BETWEEN` and `LIKE`. -/
def comparisonPower : Nat := 7

/-- The power with which an operator in front of an operand holds it. -/
def unaryPower? : TokenKind → Option Nat
  | .symbol .minus | .symbol .plus | .symbol .bitNot => some 19
  | .keyword .NOT => some 5
  | _ => none

/-- The power with which an operator between two operands holds the left one. `NOT` is here for
`NOT IN`, `NOT BETWEEN` and `NOT LIKE`. -/
def binaryPower? : TokenKind → Option Nat
  | .keyword .OR => some 1
  | .keyword .AND => some 3
  | .symbol .eq | .symbol .notEq | .symbol .lt | .symbol .ltEq | .symbol .gt | .symbol .gtEq
  | .keyword .IS | .keyword .IN | .keyword .BETWEEN | .keyword .LIKE | .keyword .NOT =>
    some comparisonPower
  | .symbol .bitOr => some 9
  | .symbol .bitAnd => some 11
  | .symbol .leftShift | .symbol .rightShift => some 13
  | .symbol .plus | .symbol .minus | .symbol .concat => some 15
  | .symbol .star | .symbol .slash | .symbol .percent => some 17
  | _ => none

/-- The power with which a cast holds its operand. -/
def castPower? : TokenKind → Option Nat
  | .symbol .doubleColon => some 21
  | _ => none

end SelectRouting.Expr
