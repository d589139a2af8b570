/-!
# The calendar

Dates of the proleptic Gregorian calendar, numbered from the first day of year 1. A day number
splits into spans of four hundred years, centuries, groups of four years and years, each of which
has a fixed number of days but for a leap day at the end of some of them; taking at most three
centuries and at most three years keeps that last day in its own year.

## Main definitions

* `Date`, `Date.Valid`
* `Date.dayNumber` — days since 0001-01-01
* `Date.ofDayNumber` — the date of a day number
-/

namespace CloudEvents

structure Date where
  year : Nat
  month : Nat
  day : Nat
  deriving DecidableEq

/-! ### Lengths -/

/-- Every fourth year is a leap year, except the centuries that four hundred does not divide. -/
def isLeapYear (year : Nat) : Bool := year % 4 = 0 && (year % 100 ≠ 0 || year % 400 = 0)

/-- The lengths of the twelve months. -/
def monthLengths (leap : Bool) : List Nat :=
  [31, if leap then 29 else 28, 31, 30, 31, 30, 31, 31, 30, 31, 30, 31]

/-- The days of the years from 1 up to, but not including, `year`. -/
def daysBeforeYear (year : Nat) : Nat :=
  let passed := year - 1
  365 * passed + passed / 4 - passed / 100 + passed / 400

namespace Date

/-- A date that exists, in years 1 to 9999. -/
structure Valid (d : Date) : Prop where
  year_pos : 1 ≤ d.year
  year_le : d.year ≤ 9999
  month_pos : 1 ≤ d.month
  month_le : d.month ≤ 12
  day_pos : 1 ≤ d.day
  day_le : d.day ≤ (monthLengths (isLeapYear d.year)).getD (d.month - 1) 0

instance (d : Date) : Decidable d.Valid :=
  decidable_of_iff
    (1 ≤ d.year ∧ d.year ≤ 9999 ∧ 1 ≤ d.month ∧ d.month ≤ 12 ∧ 1 ≤ d.day
      ∧ d.day ≤ (monthLengths (isLeapYear d.year)).getD (d.month - 1) 0)
    ⟨fun ⟨a, b, c, d, e, f⟩ => ⟨a, b, c, d, e, f⟩, fun h =>
      ⟨h.year_pos, h.year_le, h.month_pos, h.month_le, h.day_pos, h.day_le⟩⟩

/-! ### Numbering -/

/-- The number of days from 0001-01-01. -/
def dayNumber (d : Date) : Nat :=
  let passedMonths := (monthLengths (isLeapYear d.year)).take (d.month - 1)
  daysBeforeYear d.year + passedMonths.foldr (· + ·) 0 + (d.day - 1)

/-- The year of a day number, and the days passed in it. -/
def yearOfDayNumber (n : Nat) : Nat × Nat :=
  let fourCenturies := n / 146097
  let inFourCenturies := n % 146097
  let century := min (inFourCenturies / 36524) 3
  let inCentury := inFourCenturies - 36524 * century
  let fourYears := inCentury / 1461
  let inFourYears := inCentury % 1461
  let year := min (inFourYears / 365) 3
  (400 * fourCenturies + 100 * century + 4 * fourYears + year + 1, inFourYears - 365 * year)

/-- How many of the given months have passed after `days` days, and the days since the last. -/
def splitMonths : List Nat → (days : Nat) → Nat × Nat
  | [], days => (0, days)
  | length :: rest, days =>
    if days < length then (0, days)
    else
      let (months, left) := splitMonths rest (days - length)
      (months + 1, left)

/-- The date that comes `n` days after 0001-01-01. -/
def ofDayNumber (n : Nat) : Date :=
  let (year, inYear) := yearOfDayNumber n
  let (months, inMonth) := splitMonths (monthLengths (isLeapYear year)) inYear
  { year, month := months + 1, day := inMonth + 1 }

end Date

/-- The day number of 1970-01-01. -/
def epochDay : Nat := 719162

end CloudEvents
