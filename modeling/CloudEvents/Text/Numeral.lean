import CloudEvents.Text.Digit

/-!
# Lenient numerals

Numbers inside timestamp texts, command-line arguments and candidates are read leniently: digits of
any script count as digits, an underscore may stand between two digits, blanks may surround the
whole, and a sign may lead. Three readers share these rules: one for integers, one for the part of a
decimal after its point, and one for whole floating-point numerals, which may also be names.

## Main definitions

* `readInteger?` — an integer, of at most `maxDigits` digits
* `Decimal`, `readFraction?` — the part of a decimal after its point, with its exponent
* `Numeral`, `readNumeral?` — a decimal with a sign, or the name of a value that has no digits
-/

namespace CloudEvents.Text

/-! ### Shared rules -/

/-- The ASCII form of a character of a numeral. Every character that has none becomes one that no
numeral contains. -/
def plain (c : Char) : Char :=
  if c.toNat < 127 then c
  else if isWideBlank c then ' '
  else match digitValue? c with
    | some d => Nat.digitChar d
    | none => '?'

/-- Drops the blanks at the end. -/
def trimEnd (cs : List Char) : List Char := (cs.reverse.dropWhile isAsciiBlank).reverse

/-- Removes the underscores of a numeral, each of which has to stand between two digits. The flag
tells whether a digit comes before. -/
def ungroup (afterDigit : Bool) : List Char → Option (List Char)
  | [] => some []
  | '_' :: c :: rest =>
    if afterDigit && c.isDigit then (ungroup true rest).map (c :: ·) else none
  | ['_'] => none
  | c :: rest => (ungroup c.isDigit rest).map (c :: ·)

/-- The number that ASCII digits write, if there is at least one digit and nothing else. -/
def readDigits? (cs : List Char) : Option Nat :=
  if cs ≠ [] ∧ cs.all Char.isDigit then
    some (cs.foldl (fun n c => 10 * n + (c.toNat - 48)) 0)
  else none

/-- Digits after an optional sign. -/
def readSigned? : List Char → Option Int
  | '-' :: digits => (readDigits? digits).map fun n => -(n : Int)
  | '+' :: digits => (readDigits? digits).map Int.ofNat
  | digits => (readDigits? digits).map Int.ofNat

/-! ### Integers -/

/-- The greatest number of digits of an integer that is read. -/
def maxDigits : Nat := 4300

/-- The integer that a lenient numeral writes. -/
def readInteger? (cs : List Char) : Option Int :=
  (ungroup false (trimEnd ((cs.map plain).dropWhile isAsciiBlank))).bind fun cs =>
    if (cs.filter Char.isDigit).length ≤ maxDigits then readSigned? cs else none

/-! ### Decimals -/

/-- `digits`, of which the last `scale` stand after the point, times ten to the power `exponent`. -/
structure Decimal where
  digits : Nat
  scale : Nat
  exponent : Int
  deriving DecidableEq

/-- Digits, possibly none, and possibly an exponent after an `e`: what follows the point of a
decimal. -/
def readPlainFraction? (cs : List Char) : Option Decimal :=
  let digits := cs.takeWhile Char.isDigit
  let decimal (exponent : Int) : Decimal :=
    { digits := (readDigits? digits).getD 0, scale := digits.length, exponent }
  match cs.dropWhile Char.isDigit with
  | [] => some (decimal 0)
  | mark :: exponent =>
    if mark = 'e' ∨ mark = 'E' then (readSigned? exponent).map decimal else none

/-- What follows the point of a lenient decimal. -/
def readFraction? (cs : List Char) : Option Decimal :=
  (ungroup false (trimEnd (cs.map plain))).bind readPlainFraction?

/-- Digits, a point among them or not, and possibly an exponent. There is a digit before the
exponent, on either side of the point. -/
def readPlainDecimal? (cs : List Char) : Option Decimal :=
  let whole := cs.takeWhile Char.isDigit
  let rest := cs.dropWhile Char.isDigit
  (readPlainFraction? (if rest.head? = some '.' then rest.tail else rest)).bind fun fraction =>
    if whole = [] ∧ fraction.scale = 0 then none
    else
      let digits := (readDigits? whole).getD 0 * Nat.pow 10 fraction.scale + fraction.digits
      some { fraction with digits }

/-! ### Floating-point numerals -/

/-- What a floating-point numeral writes. -/
inductive Numeral where
  | decimal (negative : Bool) (size : Decimal)
  | infinite (negative : Bool)
  | nan
  deriving DecidableEq

/-- A numeral without its sign. Infinity and the value that is not a number have names, in letters
of either case. -/
def readUnsigned? (negative : Bool) (cs : List Char) : Option Numeral :=
  let name := String.ofList (cs.map Char.toLower)
  if name = "inf" ∨ name = "infinity" then some (.infinite negative)
  else if name = "nan" then some .nan
  else (readPlainDecimal? cs).map (.decimal negative)

/-- The lenient numeral of a floating-point number. -/
def readNumeral? (cs : List Char) : Option Numeral :=
  (ungroup false (trimEnd ((cs.map plain).dropWhile isAsciiBlank))).bind fun
    | '-' :: size => readUnsigned? true size
    | '+' :: size => readUnsigned? false size
    | size => readUnsigned? false size

end CloudEvents.Text
