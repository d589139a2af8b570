import CloudEvents.Number.Binary64

/-!
# Written numbers

Number texts of reports: zero-padded fields, a fixed number of decimal places, digits in groups of
three. What is written of a floating-point number is its size, behind a sign if it is negative,
also if what is written of the size is zero.
-/

namespace CloudEvents

/-- A number with at least `width` digits. -/
def padded (width n : Nat) : String :=
  let digits := toString n
  String.ofList (List.replicate (width - digits.length) '0') ++ digits

/-- Puts a comma before every third digit from the end. -/
def groupDigits (digits : List Char) : List Char :=
  match digits with
  | [] => []
  | d :: rest =>
    if rest ≠ [] ∧ rest.length % 3 = 0 then d :: ',' :: groupDigits rest else d :: groupDigits rest

/-- A number with a comma between groups of three digits. -/
def grouped (n : Nat) : String := String.ofList (groupDigits (toString n).toList)

/-- A size with exactly `places` decimal places, a half going to the even neighbour. -/
def fixedPoint (places : Nat) (size : Rat) : String :=
  let unit := Nat.pow 10 places
  let units := (roundHalfEven (size * (unit : Int))).toNat
  toString (units / unit) ++ "." ++ padded places (units % unit)

/-- A size as a whole number in groups of three digits, a half going to the even neighbour. -/
def groupedWhole (size : Rat) : String := grouped (roundHalfEven size).toNat

namespace Binary64

def signText (negative : Bool) : String := if negative then "-" else ""

/-- The text of a number, given the text of a size. -/
def format (sizeText : Rat → String) : Binary64 → String
  | finite negative size => signText negative ++ sizeText size
  | infinite negative => signText negative ++ "inf"
  | nan _ => "nan"

end Binary64

end CloudEvents
