/-!
# Rounding and binary fractions

A binary64 number is a rational with at most 53 significant bits, none of them below the place of
`2 ^ (-1074)`, and smaller than `2 ^ 1024`. Reading a decimal and every operation on such numbers
give the exact result rounded to the nearest of them, a tie going to the even neighbour. Here that
rule is a function on rationals, so nothing depends on how a machine stores the bits.

## Main definitions

* `roundHalfEven` — the nearest integer
* `nearestBinary64` — the nearest binary64 number, if the result does not overflow
-/

namespace CloudEvents

/-- The integer nearest to a rational; of two, the even one. -/
def roundHalfEven (x : Rat) : Int :=
  let below := x.floor
  let rest := x - below
  if rest < 1 / 2 ∨ (rest = 1 / 2 ∧ below % 2 = 0) then below else below + 1

/-- The greatest `e` for which `2 ^ e` does not exceed the size of a nonzero rational. -/
def binaryExponent (x : Rat) : Int :=
  let estimate := (x.num.natAbs.log2 : Int) - x.den.log2
  if x.abs < Rat.zpow 2 estimate then estimate - 1 else estimate

/-- The binary64 number nearest to a rational, unless it lies beyond the largest one. -/
def nearestBinary64 (x : Rat) : Option Rat :=
  if x = 0 then some 0
  else
    let unit := Rat.zpow 2 (max (binaryExponent x - 52) (-1074))
    let nearest := roundHalfEven (x / unit) * unit
    if nearest.abs < Rat.zpow 2 1024 then some nearest else none

end CloudEvents
