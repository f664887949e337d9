/-!
# Decimal numbers and their text

A decimal number is a count of units of a power of ten. Its text is positional in the middle of the
scale and has an exponent at the two ends.
-/

namespace SelectRouting

/-- The number `digits * 10 ^ exponent`. -/
structure Decimal where
  digits : Nat
  exponent : Int
deriving DecidableEq

/-- Where the positional form of a number begins and ends: the least and the greatest exponent of
the leading digit that it is used for. -/
structure DecimalLayout where
  least : Int
  greatest : Int

namespace Decimal

/-- The digits of a number to the base ten. -/
def digitsOf (n : Nat) : List Char :=
  Nat.toDigits 10 n

/-- The number that the decimal digits spell. -/
def ofDigits (digits : List Char) : Nat :=
  digits.foldl (fun value c => 10 * value + (c.toNat - '0'.toNat)) 0

/-- The exponent of the leading digit. -/
def magnitude (number : Decimal) : Int :=
  (digitsOf number.digits).length + number.exponent - 1

/-- A run of zeros. -/
private def zeros (n : Nat) : List Char :=
  List.replicate n '0'

/-- The positional form: at least one digit on either side of the point. -/
def positional (number : Decimal) : List Char :=
  let digits := digitsOf number.digits
  let whole := (digits.length + number.exponent).toNat
  if 0 ≤ number.exponent then digits ++ zeros number.exponent.toNat ++ ['.', '0']
  else if 0 < whole then digits.take whole ++ ['.'] ++ digits.drop whole
  else ['0', '.'] ++ zeros (-(digits.length + number.exponent)).toNat ++ digits

/-- The form with an exponent: one digit before the point, and no point behind a lone digit. -/
def scientific (number : Decimal) : List Char :=
  let digits := digitsOf number.digits
  let fraction := digits.drop 1
  digits.take 1 ++ (if fraction.isEmpty then [] else '.' :: fraction) ++ ['e'] ++
    (toString number.magnitude).toList

/-- The text of a number in the given layout; zero is always positional. -/
def render (layout : DecimalLayout) (number : Decimal) : String :=
  String.ofList <|
    if number.digits == 0 ||
        (layout.least ≤ number.magnitude && number.magnitude ≤ layout.greatest) then
      number.positional
    else number.scientific

end Decimal

end SelectRouting
