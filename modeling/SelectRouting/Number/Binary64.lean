import SelectRouting.Number.Decimal

/-!
# Numbers in the binary64 format

The non-negative numbers of the IEEE 754 format with 64 bits, kept as their bits. A decimal number
is rounded to the nearest of them, a tie to the even one, and the shortest decimal number that
rounds back is found by trying ever finer powers of ten in exact arithmetic.
-/

namespace SelectRouting

/-- A number in the binary64 format. -/
structure Binary64 where
  bits : UInt64
deriving DecidableEq

namespace Binary64

/-- The bits of infinity. -/
def infinityBits : Nat := 0x7FF0000000000000

/-- What is greater than all numbers. -/
def infinity : Binary64 := ⟨.ofNat infinityBits⟩

/-- The number zero. -/
def zero : Binary64 := ⟨0⟩

/-- The exponent of the least positive number, and so of the finest unit. -/
def leastExponent : Int := -1074

/-- The greatest `e` with `2 ^ e ≤ num / den`, for positive `num` and `den`. -/
def floorLog2 (num den : Nat) : Int :=
  let estimate : Int := num.log2 - den.log2
  if den <<< estimate.toNat ≤ num <<< (-estimate).toNat then estimate else estimate - 1

/-- The whole number nearest to `num / den`, the even one of two that are equally near. -/
def nearest (num den : Nat) : Nat :=
  let quotient := num / den
  let remainder := num % den
  if den < 2 * remainder || (2 * remainder == den && quotient % 2 == 1) then quotient + 1
  else quotient

/-- The number nearest to `num / den`, for positive `num` and `den`. -/
def ofRatio (num den : Nat) : Binary64 :=
  let unit := max leastExponent (floorLog2 num den - 52)
  let significand := nearest (num <<< (-unit).toNat) (den <<< unit.toNat)
  -- A significand that reaches the next power of two carries into the exponent.
  let bits := (unit - leastExponent).toNat <<< 52 + significand
  if infinityBits ≤ bits then infinity else ⟨.ofNat bits⟩

/-- The number nearest to a decimal number. Far outside the range of the format the answer is known
without the power of ten. -/
def ofDecimal (number : Decimal) : Binary64 :=
  if number.digits == 0 || number.magnitude < -400 then zero
  else if 400 < number.magnitude then infinity
  else
    ofRatio (number.digits * Nat.pow 10 number.exponent.toNat)
      (Nat.pow 10 (-number.exponent).toNat)

/-- The significand and the exponent of its unit, for a finite number. -/
def parts (x : Binary64) : Nat × Int :=
  let exponent := x.bits.toNat >>> 52
  let fraction := x.bits.toNat % (1 <<< 52)
  if exponent == 0 then (fraction, leastExponent)
  else (1 <<< 52 + fraction, leastExponent + (exponent - 1 : Nat))

/-- The shortest decimal number that rounds to a positive finite number, trying `tries` powers of
ten from `10 ^ power` down. Of the two multiples of a power next to the number the nearer one is
taken when both round to it, the greater one when they are equally near. -/
def shortestFrom (significand : Nat) (unit : Int) : Nat → Int → Decimal
  | 0, power => ⟨0, power⟩
  | tries + 1, power =>
    -- In quarters of the unit, the numbers that round to this one reach from `low` to `high`.
    let value := 4 * significand
    let low := value - if significand == 1 <<< 52 && unit != leastExponent then 1 else 2
    let high := value + 2
    let quarter := Nat.pow 10 (-power).toNat <<< (unit - 2).toNat
    let step := Nat.pow 10 power.toNat <<< (2 - unit).toNat
    let within (multiple : Nat) : Bool :=
      if significand % 2 == 0 then
        low * quarter ≤ multiple * step && multiple * step ≤ high * quarter
      else low * quarter < multiple * step && multiple * step < high * quarter
    let below := value * quarter / step
    let isNearer := 2 * (value * quarter - below * step) < step
    if within below && (isNearer || !within (below + 1)) then ⟨below, power⟩
    else if within (below + 1) then ⟨below + 1, power⟩
    else shortestFrom significand unit tries (power - 1)

/-- The shortest decimal number that rounds to a finite number. -/
def shortest (x : Binary64) : Decimal :=
  let (significand, unit) := x.parts
  if significand == 0 then ⟨0, 0⟩
  else
    -- The first power is above the number, and seventeen digits always suffice.
    shortestFrom significand unit 24 ((unit + significand.log2) * 30103 / 100000 + 2)

/-- The text of a number: the digits of the shortest decimal number, or the word for infinity. -/
def render (layout : DecimalLayout) (x : Binary64) : String :=
  if infinityBits ≤ x.bits.toNat then "inf" else x.shortest.render layout

end Binary64

end SelectRouting
