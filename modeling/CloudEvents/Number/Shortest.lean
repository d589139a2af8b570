import CloudEvents.Number.Format

/-!
# Floating-point text

A binary64 number is written with the fewest digits that read back as the same number. Of several
such decimals the one nearest to the number is taken, and of two equally near ones the even one.

The digits stand around a point while the point is near them: no more than three zeros after it,
and no more than sixteen digits before it. Other numbers are written with one digit before the point
and an exponent of at least two digits. A number without a fraction keeps a zero after the point,
unless it has an exponent.

## Main definitions

* `shortestDecimal` — the digits, and the power of ten of the last one
* `Binary64.text`
-/

namespace CloudEvents

/-! ### Digits -/

/-- The greatest `e` for which `10 ^ e` does not exceed a positive rational. The estimate comes from
the binary exponent and is off by at most one. -/
def decimalExponent (x : Rat) : Int :=
  let estimate := (binaryExponent x * 30103).fdiv 100000
  if x < Rat.zpow 10 estimate then estimate - 1
  else if Rat.zpow 10 (estimate + 1) ≤ x then estimate + 1
  else estimate

/-- The multiple of `10 ^ place` that reads back as a positive `x`: the nearest one, else the one on
the other side of `x`, if any does. -/
def multiple? (x : Rat) (place : Int) : Option Nat :=
  let unit := Rat.zpow 10 place
  let below := (x / unit).floor.toNat
  let nearest := (roundHalfEven (x / unit)).toNat
  let other := if nearest = below then below + 1 else below
  [nearest, other].find? fun n => nearestBinary64 ((n : Int) * unit) = some x

/-- The shortest decimal that reads back as a positive binary64 number: its digits as a number, and
the power of ten that the last digit counts. Seventeen digits are enough for every number. -/
def shortestDecimal (x : Rat) : Nat × Int :=
  let first := decimalExponent x
  let attempt (digits : Nat) : Option (Nat × Int) :=
    let place := first + 1 - digits
    (multiple? x place).map fun n => (n, place)
  let exact := (roundHalfEven (x / Rat.zpow 10 (first - 16))).toNat
  ((List.range' 1 17).findSome? attempt).getD (exact, first - 16)

/-! ### Layout -/

/-- Digits without the zeros at their end, and the number of digits before the point. -/
def significantDigits (decimal : Nat × Int) : List Char × Int :=
  let digits := (toString decimal.1).toList
  ((digits.reverse.dropWhile (· = '0')).reverse, digits.length + decimal.2)

private def zeros (count : Int) : List Char := List.replicate count.toNat '0'

/-- Digits around a point, which stands behind the first `point` of them. -/
private def positional (digits : List Char) (point : Int) : List Char :=
  if point ≤ 0 then '0' :: '.' :: (zeros (-point) ++ digits)
  else
    let whole := digits.take point.toNat ++ zeros (point - digits.length)
    let fraction := digits.drop point.toNat
    whole ++ '.' :: if fraction = [] then ['0'] else fraction

/-- One digit before the point, and the power of ten by which the point is to be moved. -/
private def scientific (digits : List Char) (exponent : Int) : List Char :=
  let fraction := digits.drop 1
  digits.take 1 ++ (if fraction = [] then [] else '.' :: fraction)
    ++ ['e', if exponent < 0 then '-' else '+'] ++ (padded 2 exponent.natAbs).toList

/-- The text of a size. -/
def sizeText (size : Rat) : String :=
  if size = 0 then "0.0"
  else
    let (digits, point) := significantDigits (shortestDecimal size)
    .ofList (if -4 < point ∧ point ≤ 16 then positional digits point
      else scientific digits (point - 1))

/-- The text of a floating-point number. -/
def Binary64.text (x : Binary64) : String := x.format sizeText

end CloudEvents
