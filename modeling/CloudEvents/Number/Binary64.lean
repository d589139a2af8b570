import CloudEvents.Number.Rounding
import CloudEvents.Text.Numeral

/-!
# Binary64 numbers

A floating-point value is a sign with a size that binary64 holds, an infinity, or the value that is
not a number. Zero has a sign as well, which counts for its text and for nothing else.

The value that is not a number equals nothing, not even itself. A container nevertheless finds the
very one that was put into it, so each occurrence of that value carries a mark of its own.

Operations give the exact result rounded to the nearest number, and an infinity where that
overflows. Two things are refused instead: an integer that no finite number is near, and a division
by zero.

## Main definitions

* `Text.Decimal.value` — the rational that a decimal writes, for the purposes of binary64
* `Binary64`, `Binary64.ofText?` — the type, and reading
* `Binary64.rational?`, `Binary64.isZero`, `Binary64.same`
* `Binary64.sub`, `Binary64.ofInt?`, `Binary64.div?` — arithmetic
-/

namespace CloudEvents

/-- The rational that a decimal writes. The power of ten is cut where the number has left the range
of binary64 numbers whatever its digits are, so that no numeral is too large to be read. -/
def Text.Decimal.value (d : Text.Decimal) : Rat :=
  let smallest : Int := -(400 + d.digits.log2)
  (d.digits : Int) * Rat.zpow 10 (max smallest (min 400 (d.exponent - d.scale)))

/-- A binary64 number. -/
inductive Binary64 where
  /-- A sign and a size. Reading makes only sizes that binary64 holds. -/
  | finite (negative : Bool) (size : Rat)
  | infinite (negative : Bool)
  /-- An occurrence of the value that is not a number. -/
  | nan (occurrence : Nat)
  deriving DecidableEq

namespace Binary64

/-- The number nearest to a signed size, which is an infinity beyond the largest number. -/
def ofRat (negative : Bool) (size : Rat) : Binary64 :=
  match nearestBinary64 size with
  | some nearest => finite negative nearest
  | none => infinite negative

/-- What a numeral writes. A value that is not a number is this occurrence of it. -/
def ofNumeral (occurrence : Nat) : Text.Numeral → Binary64
  | .decimal negative size => ofRat negative size.value
  | .infinite negative => infinite negative
  | .nan => nan occurrence

/-- The number that a text writes as a lenient numeral. -/
def ofText? (occurrence : Nat) (text : String) : Option Binary64 :=
  (Text.readNumeral? text.toList).map (ofNumeral occurrence)

/-- A size with a sign. -/
def signed (negative : Bool) (size : Rat) : Rat := if negative then -size else size

/-- The value of a finite number. -/
def rational? : Binary64 → Option Rat
  | finite negative size => some (signed negative size)
  | _ => none

def isNan : Binary64 → Bool
  | nan _ => true
  | _ => false

def isZero (x : Binary64) : Bool := x.rational? = some 0

/-- Equality of what containers hold: the same value, or the same occurrence. -/
def same (x y : Binary64) : Bool :=
  match x.rational?, y.rational? with
  | some a, some b => a = b
  | none, none => x = y
  | _, _ => false

/-! ### Arithmetic -/

/-- Greater than zero. -/
def isPositive : Binary64 → Bool
  | finite negative size => 0 < signed negative size
  | infinite negative => !negative
  | nan _ => false

def neg : Binary64 → Binary64
  | finite negative size => finite (!negative) size
  | infinite negative => infinite (!negative)
  | nan occurrence => nan occurrence

/-- Numbers that cancel out leave a zero that is negative only if both were. -/
def add : Binary64 → Binary64 → Binary64
  | nan occurrence, _ => nan occurrence
  | _, nan occurrence => nan occurrence
  | infinite a, infinite b => if a = b then infinite a else nan 0
  | infinite a, finite _ _ => infinite a
  | finite _ _, infinite b => infinite b
  | finite a x, finite b y =>
    let sum := signed a x + signed b y
    if sum = 0 then finite (a && b) 0 else ofRat (sum < 0) sum.abs

def sub (x y : Binary64) : Binary64 := x.add y.neg

/-- The number nearest to an integer, unless that lies beyond the largest one. -/
def ofInt? (i : Int) : Option Binary64 := (nearestBinary64 i.natAbs).map (finite (i < 0))

/-- The quotient, unless the divisor is zero. -/
def div? (x y : Binary64) : Option Binary64 :=
  if y.isZero then none
  else match x, y with
    | nan occurrence, _ => some (nan occurrence)
    | _, nan occurrence => some (nan occurrence)
    | infinite _, infinite _ => some (nan 0)
    | infinite a, finite b _ => some (infinite (a != b))
    | finite a _, infinite b => some (finite (a != b) 0)
    | finite a x, finite b y => some (ofRat (a != b) (x / y))

end Binary64

end CloudEvents
