import CloudEvents.Error
import CloudEvents.Number.Binary64
import CloudEvents.Time.DateTime

/-!
# Timestamps as text

Timestamps are written in one form of RFC 3339: date and time in UTC with four digits for the year,
the fewest of three, six or nine fraction digits that are exact, none for a whole second, and `Z`.

Reading is wider than that. The zone begins at the first `Z`, else the first `+`, else the last `-`;
what stands before it is split at its first point into date-time and fraction. The fields of the
date-time have one or two digits, of which some may come from any script. The fraction is read as a
binary64 number and only then turned into nanoseconds. The offset is a pair of lenient integers.

Everything that does not fit is the same failure, with one exception: a fraction with an exponent so
large that it exceeds all binary64 numbers is a misuse (`Misuse.infiniteFraction`).

## Main definitions

* `Timestamp.toRfc3339`
* `Timestamp.ofRfc3339`, with one reader for each part of a text
-/

namespace CloudEvents

/-! ### Writing -/

/-- The fraction of a second: nothing, or a point and the fewest of three, six or nine digits. -/
def fractionText (nanos : Nat) : String :=
  if nanos = 0 then ""
  else if nanos % 1000000 = 0 then "." ++ padded 3 (nanos / 1000000)
  else if nanos % 1000 = 0 then "." ++ padded 6 (nanos / 1000)
  else "." ++ padded 9 nanos

/-- The RFC 3339 text of a timestamp. -/
def Timestamp.toRfc3339 (t : Timestamp) : String :=
  let d := t.toDateTime
  { d with microsecond := 0, offset := .absent : DateTime }.toText "T"
    ++ fractionText t.nanos.toNat ++ "Z"

namespace Rfc3339

/-! ### Fields of a date-time -/

/-- The value of an ASCII digit within bounds. -/
def asciiDigit? (low high : Nat) (c : Char) : Option Nat :=
  let d := c.toNat - 48
  if c.isDigit && low ≤ d && d ≤ high then some d else none

/-- Four digits of any script. -/
def year? : List Char → Option Nat
  | [a, b, c, d] => do
    return 1000 * (← Text.digitValue? a) + 100 * (← Text.digitValue? b)
      + 10 * (← Text.digitValue? c) + (← Text.digitValue? d)
  | _ => none

/-- 1 to 12 with one or two ASCII digits. -/
def month? : List Char → Option Nat
  | [tens, c] =>
    match tens with
    | '1' => (asciiDigit? 0 2 c).map (10 + ·)
    | '0' => asciiDigit? 1 9 c
    | _ => none
  | [c] => asciiDigit? 1 9 c
  | _ => none

/-- 1 to 31; one digit may also follow a space. -/
def day? : List Char → Option Nat
  | [tens, c] =>
    match tens with
    | '3' => (asciiDigit? 0 1 c).map (30 + ·)
    | '2' => (Text.digitValue? c).map (20 + ·)
    | '1' => (Text.digitValue? c).map (10 + ·)
    | '0' | ' ' => asciiDigit? 1 9 c
    | _ => none
  | [c] => asciiDigit? 1 9 c
  | _ => none

/-- 0 to 23 with one or two digits. -/
def hour? : List Char → Option Nat
  | [tens, c] =>
    match tens with
    | '2' => (asciiDigit? 0 3 c).map (20 + ·)
    | '1' => (Text.digitValue? c).map (10 + ·)
    | '0' => Text.digitValue? c
    | _ => none
  | [c] => Text.digitValue? c
  | _ => none

/-- 0 to 59 with one or two digits. -/
def sixtieth? : List Char → Option Nat
  | [tens, c] => do return 10 * (← asciiDigit? 0 5 tens) + (← Text.digitValue? c)
  | [c] => Text.digitValue? c
  | _ => none

/-- The text up to the first of a character, and the text after it. -/
def cut? (separator : Char) (cs : List Char) : Option (List Char × List Char) :=
  match cs.span (· ≠ separator) with
  | (front, _ :: back) => some (front, back)
  | (_, []) => none

/-- A date and a time of day, without fraction and offset. -/
def dateTime? (cs : List Char) : Option DateTime := do
  if 't' ∈ cs then none
  let (yearText, cs) ← cut? '-' cs
  let (monthText, cs) ← cut? '-' cs
  let (dayText, cs) ← cut? 'T' cs
  let (hourText, cs) ← cut? ':' cs
  let (minuteText, secondText) ← cut? ':' cs
  let date : Date :=
    { year := ← year? yearText, month := ← month? monthText, day := ← day? dayText }
  if ¬ date.Valid then none
  return { date, hour := ← hour? hourText, minute := ← sixtieth? minuteText
           second := ← sixtieth? secondText }

/-! ### Fraction -/

/-- The nanoseconds of a fraction: the binary64 number nearest to it, multiplied by a billion in
binary64, rounded to an integer. -/
def nanosOf? (f : Text.Decimal) : Option Int := do
  let seconds ← nearestBinary64 f.value
  let nanos ← nearestBinary64 (seconds * 1000000000)
  return roundHalfEven nanos

/-! ### Zone -/

/-- The text before the zone and the zone itself, which begins at the first `Z`, else at the first
plus sign, else at the last minus sign. -/
def splitZone? (cs : List Char) : Option (List Char × List Char) :=
  if 'Z' ∈ cs then some (cs.span (· ≠ 'Z'))
  else if '+' ∈ cs then some (cs.span (· ≠ '+'))
  else if '-' ∈ cs then
    let (after, before) := cs.reverse.span (· ≠ '-')
    some ((before.drop 1).reverse, '-' :: after.reverse)
  else none

/-- The seconds by which a zone is ahead of UTC. -/
def zoneSeconds? : List Char → Option Int
  | ['Z'] => some 0
  | sign :: rest => do
    if sign = 'Z' then none
    let (hours, minutes) ← cut? ':' rest
    let size := ((← Text.readInteger? hours) * 60 + (← Text.readInteger? minutes)) * 60
    return if sign = '+' then size else -size
  | [] => none

/-! ### The whole text -/

/-- The date-time and the fraction of the part before the zone. -/
def localParts? (cs : List Char) : Option (DateTime × Text.Decimal) := do
  let (time, fraction) := (cut? '.' cs).getD (cs, [])
  let d ← dateTime? time
  if 9 < fraction.length then none
  return (d, ← Text.readFraction? fraction)

/-- The timestamp that the parts of a text name, if it lies in range. -/
def assemble? (d : DateTime) (nanos : Int) (zone : List Char) : Option Timestamp := do
  let ahead ← zoneSeconds? zone
  let t : Timestamp := { seconds := d.localSeconds - ahead, nanos }
  if t.Valid then some t else none

end Rfc3339

/-- The timestamp of an RFC 3339 text. -/
def Timestamp.ofRfc3339 (text : String) : Except Error Timestamp :=
  let refused : Except Error Timestamp := .error (.invalid [.notRfc3339 text])
  match Rfc3339.splitZone? text.toList with
  | none => refused
  | some (before, zone) =>
    match Rfc3339.localParts? before with
    | none => refused
    | some (d, fraction) =>
      match Rfc3339.nanosOf? fraction with
      | none => .error (.misuse .infiniteFraction)
      | some nanos => ((Rfc3339.assemble? d nanos zone).map .ok).getD refused

end CloudEvents
