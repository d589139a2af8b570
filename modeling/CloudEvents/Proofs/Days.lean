import CloudEvents.Time.Calendar
import Mathlib.Algebra.Order.Group.Nat
import Mathlib.Logic.Function.Iterate

/-!
# Counting days

A day number is computed with divisions by the lengths of years, centuries and longer spans. What it
means needs none of them: a calendar says which day comes after a day, and to count is to go from
day to day. `Date.next` is that rule, and here the arithmetic is tied to it. Numbers rise by one
from each day to the next, every day is reached from the first one, and so the two functions between
dates and day numbers are inverse to each other.

The rule knows no last year. Dates that exist are therefore kept apart from the valid ones, which
end with year 9999: counting goes on beyond it, and only then is it asked which dates can be
written.

## Main definitions

* `Date.next` — the day after a date
* `Date.Exists` — a valid date, but for the last year
* `Date.DaysAfterEpoch` — how many days a date lies after the first of January 1970

## Main results

* `Date.dayNumber_next` — day numbers count days
* `Date.ofDayNumber_dayNumber`, `Date.dayNumber_ofDayNumber` — the inverse functions
* `Date.daysAfterEpoch_iff` — days after the epoch, by day numbers
-/

namespace CloudEvents

/-! ### Years -/

/-- The days of a year. -/
def yearLength (leap : Bool) : Nat := if leap then 366 else 365

/-- The sum is kept up one year at a time. -/
theorem daysBeforeYear_add_one {year : Nat} (h : 1 ≤ year) :
    daysBeforeYear (year + 1) = daysBeforeYear year + yearLength (isLeapYear year) := by
  have carry (k : Nat) : year / k = (year - 1) / k + if year % k = 0 then 1 else 0 := by
    obtain ⟨passed, rfl⟩ := Nat.exists_eq_add_of_le' h
    rw [Nat.add_sub_cancel, Nat.succ_div]
    simp only [Nat.dvd_iff_mod_eq_zero]
  have h100 : year % 100 = 0 → year % 4 = 0 := by omega
  have h400 : year % 400 = 0 → year % 100 = 0 := by omega
  have hle : (year - 1) / 100 ≤ (year - 1) / 4 := Nat.div_le_div_left (by decide) (by decide)
  simp only [daysBeforeYear, Nat.add_sub_cancel, carry 4, carry 100, carry 400, yearLength,
    isLeapYear, Bool.and_eq_true, Bool.or_eq_true, decide_eq_true_eq]
  -- the quotients are unknowns from here on, only the remainders decide
  generalize (year - 1) / 4 = fourYears at *
  generalize (year - 1) / 100 = centuries at *
  split <;> split <;> split <;> split <;> omega

/-- A day number splits into the years before and the days of the year in which it falls. The year
lies in the last of its four years, centuries and so on exactly if its leap day does not end them.
-/
theorem Date.yearOfDayNumber_add {year days : Nat} (h : 1 ≤ year)
    (hdays : days < yearLength (isLeapYear year)) :
    yearOfDayNumber (daysBeforeYear year + days) = (year, days) := by
  obtain ⟨a, b, c, e, hb, hc, he, rfl⟩ : ∃ a b c e, b < 4 ∧ c < 25 ∧ e < 4
      ∧ year = 400 * a + 100 * b + 4 * c + e + 1 :=
    ⟨(year - 1) / 400, (year - 1) % 400 / 100, (year - 1) % 100 / 4, (year - 1) % 4,
      by omega, by omega, by omega, by omega⟩
  have hbefore : daysBeforeYear (400 * a + 100 * b + 4 * c + e + 1)
      = 146097 * a + 36524 * b + 1461 * c + 365 * e := by
    simp only [daysBeforeYear]
    omega
  -- a leap day is the last of four years, and of a century only if that is the last of four
  have hlast : days < 365 ∨ (days = 365 ∧ e = 3 ∧ (c = 24 → b = 3)) := by
    simp only [yearLength, isLeapYear, Bool.and_eq_true, Bool.or_eq_true,
      decide_eq_true_eq] at hdays
    split at hdays <;> omega
  have hquotient : (146097 * a + 36524 * b + 1461 * c + 365 * e + days) / 146097 = a := by omega
  have hrest : (146097 * a + 36524 * b + 1461 * c + 365 * e + days) % 146097
      = 36524 * b + 1461 * c + 365 * e + days := by omega
  have hcentury : min ((36524 * b + 1461 * c + 365 * e + days) / 36524) 3 = b := by omega
  have hinCentury : 36524 * b + 1461 * c + 365 * e + days - 36524 * b
      = 1461 * c + 365 * e + days := by omega
  have hfour : (1461 * c + 365 * e + days) / 1461 = c := by omega
  have hinFour : (1461 * c + 365 * e + days) % 1461 = 365 * e + days := by omega
  have hyear : min ((365 * e + days) / 365) 3 = e := by omega
  simp only [hbefore, yearOfDayNumber, hquotient, hrest, hcentury, hinCentury, hfour, hinFour,
    hyear, Nat.add_sub_cancel_left]

namespace Date

/-! ### Months -/

/-- The days of the month of a date. -/
def monthLength (d : Date) : Nat := (monthLengths (isLeapYear d.year)).getD (d.month - 1) 0

theorem sum_take_add_one (lengths : List Nat) (k : Nat) :
    (lengths.take (k + 1)).foldr (· + ·) 0
      = (lengths.take k).foldr (· + ·) 0 + lengths.getD k 0 := by
  induction lengths generalizing k with
  | nil => simp
  | cons length rest ih =>
    cases k with
    | zero => simp
    | succ k =>
      simp only [List.take_succ_cons, List.foldr_cons, List.getD_cons_succ]
      rw [ih]
      exact (Nat.add_assoc ..).symm

theorem sum_monthLengths (leap : Bool) :
    ((monthLengths leap).take 12).foldr (· + ·) 0 = yearLength leap := by
  cases leap <;> rfl

/-- The days of the first months with less than another month are split off again. -/
theorem splitMonths_add {lengths : List Nat} {k left : Nat} (h : left < lengths.getD k 0) :
    splitMonths lengths ((lengths.take k).foldr (· + ·) 0 + left) = (k, left) := by
  induction lengths generalizing k with
  | nil => simp at h
  | cons length rest ih =>
    cases k with
    | zero =>
      have hleft : left < length := by simpa using h
      simp [splitMonths, hleft]
    | succ k =>
      have hrest := ih (k := k) (by simpa using h)
      have hsum : ((length :: rest).take (k + 1)).foldr (· + ·) 0 + left
          = length + ((rest.take k).foldr (· + ·) 0 + left) := Nat.add_assoc ..
      rw [hsum, splitMonths, if_neg (by omega), Nat.add_sub_cancel_left, hrest]

/-! ### Existing dates -/

/-- A date that exists, in any year from 1 on. -/
structure Exists (d : Date) : Prop where
  year_pos : 1 ≤ d.year
  month_pos : 1 ≤ d.month
  month_le : d.month ≤ 12
  day_pos : 1 ≤ d.day
  day_le : d.day ≤ d.monthLength

variable {d : Date}

theorem valid_iff_exists : d.Valid ↔ d.Exists ∧ d.year ≤ 9999 :=
  ⟨fun h => ⟨⟨h.year_pos, h.month_pos, h.month_le, h.day_pos, h.day_le⟩, h.year_le⟩,
    fun ⟨h, hyear⟩ => ⟨h.year_pos, hyear, h.month_pos, h.month_le, h.day_pos, h.day_le⟩⟩

/-- Every month of the calendar has a first day. -/
theorem monthLength_pos (hmonth : 1 ≤ d.month) (hmonth' : d.month ≤ 12) : 1 ≤ d.monthLength := by
  have hlengths : ∀ leap, ∀ k < 12, 1 ≤ (monthLengths leap).getD k 0 := by decide
  exact hlengths _ _ (by omega)

/-- The days of the months before, and the days of this one, do not exceed the year. -/
theorem Exists.inYear_lt (h : d.Exists) :
    ((monthLengths (isLeapYear d.year)).take (d.month - 1)).foldr (· + ·) 0 + (d.day - 1)
      < yearLength (isLeapYear d.year) := by
  have hfits : ∀ leap, ∀ k < 12, ((monthLengths leap).take k).foldr (· + ·) 0
      + (monthLengths leap).getD k 0 ≤ yearLength leap := by decide
  have hmonth := hfits (isLeapYear d.year) (d.month - 1) (by have := h.month_le; omega)
  have hday := h.day_le
  have hpos := h.day_pos
  rw [monthLength] at hday
  omega

theorem dayNumber_eq (d : Date) :
    d.dayNumber = daysBeforeYear d.year
      + (((monthLengths (isLeapYear d.year)).take (d.month - 1)).foldr (· + ·) 0 + (d.day - 1)) :=
  Nat.add_assoc ..

/-- **A date is found again from its number.** -/
theorem ofDayNumber_dayNumber (h : d.Exists) : ofDayNumber d.dayNumber = d := by
  have hday : d.day - 1 < (monthLengths (isLeapYear d.year)).getD (d.month - 1) 0 := by
    have hpos := h.day_pos
    have hle := h.day_le
    rw [monthLength] at hle
    omega
  rw [ofDayNumber, dayNumber_eq, yearOfDayNumber_add h.year_pos h.inYear_lt]
  simp only [splitMonths_add hday, Nat.sub_add_cancel h.month_pos, Nat.sub_add_cancel h.day_pos]

theorem dayNumber_inj {e : Date} (hd : d.Exists) (he : e.Exists)
    (h : d.dayNumber = e.dayNumber) : d = e := by
  rw [← ofDayNumber_dayNumber hd, h, ofDayNumber_dayNumber he]

/-! ### From day to day -/

/-- The day after a date. -/
def next (d : Date) : Date :=
  if d.day < d.monthLength then { d with day := d.day + 1 }
  else if d.month < 12 then { d with month := d.month + 1, day := 1 }
  else { year := d.year + 1, month := 1, day := 1 }

theorem exists_next (h : d.Exists) : d.next.Exists := by
  rw [next]
  split
  · rename_i hday
    exact ⟨h.year_pos, h.month_pos, h.month_le, Nat.le_add_left 1 d.day, hday⟩
  · split
    · rename_i hmonth
      exact ⟨h.year_pos, Nat.le_add_left 1 d.month, hmonth, Nat.le_refl 1,
        monthLength_pos (Nat.le_add_left 1 d.month) hmonth⟩
    · have hjanuary : 1 ≤ 12 := by decide
      exact ⟨Nat.le_add_left 1 d.year, Nat.le_refl 1, hjanuary, Nat.le_refl 1,
        monthLength_pos (Nat.le_refl 1) hjanuary⟩

/-- **Day numbers count days**: within a month, over the end of a month and over the end of a
year. -/
theorem dayNumber_next (h : d.Exists) : d.next.dayNumber = d.dayNumber + 1 := by
  have hpos := h.day_pos
  have hle := h.day_le
  have hmonth := h.month_pos
  rw [next]
  split
  · simp only [dayNumber_eq]
    omega
  · have hend : d.day = d.monthLength := by omega
    have hsum := sum_take_add_one (monthLengths (isLeapYear d.year)) (d.month - 1)
    rw [monthLength] at hend
    rw [Nat.sub_add_cancel hmonth] at hsum
    split
    · simp only [dayNumber_eq, Nat.add_sub_cancel]
      omega
    · have hlast : d.month = 12 := by
        have := h.month_le
        omega
      rw [hlast, sum_monthLengths] at hsum
      rw [hlast] at hend
      simp only [dayNumber_eq, daysBeforeYear_add_one h.year_pos, hlast, Nat.sub_self,
        List.take_zero, List.foldr_nil]
      omega

theorem iterate_next (h : d.Exists) (n : Nat) :
    (next^[n] d).Exists ∧ (next^[n] d).dayNumber = d.dayNumber + n := by
  induction n with
  | zero => exact ⟨h, rfl⟩
  | succ n ih =>
    rw [Function.iterate_succ_apply']
    exact ⟨exists_next ih.1, by rw [dayNumber_next ih.1, ih.2, Nat.add_assoc]⟩

/-- Days follow each other from the first one on, so each number belongs to a date. -/
theorem exists_dayNumber_eq (n : Nat) : ∃ d : Date, d.Exists ∧ d.dayNumber = n := by
  have hfirst : ({ year := 1, month := 1, day := 1 } : Date).Exists :=
    ⟨by decide, by decide, by decide, by decide, by decide⟩
  obtain ⟨hexists, hnumber⟩ := iterate_next hfirst n
  exact ⟨_, hexists, hnumber.trans (Nat.zero_add n)⟩

theorem exists_ofDayNumber (n : Nat) : (ofDayNumber n).Exists := by
  obtain ⟨d, hd, rfl⟩ := exists_dayNumber_eq n
  rwa [ofDayNumber_dayNumber hd]

/-- **A number is found again from its date.** -/
theorem dayNumber_ofDayNumber (n : Nat) : (ofDayNumber n).dayNumber = n := by
  obtain ⟨d, hd, rfl⟩ := exists_dayNumber_eq n
  rw [ofDayNumber_dayNumber hd]

/-! ### The span of valid dates -/

theorem daysBeforeYear_mono {m n : Nat} (hm : 1 ≤ m) (h : m ≤ n) :
    daysBeforeYear m ≤ daysBeforeYear n := by
  induction n, h using Nat.le_induction with
  | base => exact Nat.le_refl _
  | succ n hn ih =>
    rw [daysBeforeYear_add_one (Nat.le_trans hm hn)]
    exact Nat.le_add_right_of_le ih

/-- A date lies in the first 9999 years if its number is less than their days. -/
theorem Exists.year_le_iff (h : d.Exists) : d.year ≤ 9999 ↔ d.dayNumber < 3652059 := by
  have hend : daysBeforeYear 10000 = 3652059 := by decide
  have hin := h.inYear_lt
  have hnumber := dayNumber_eq d
  have hnext := daysBeforeYear_add_one h.year_pos
  constructor
  · intro hyear
    have hle : daysBeforeYear (d.year + 1) ≤ daysBeforeYear 10000 :=
      daysBeforeYear_mono (Nat.le_add_left 1 d.year) (Nat.succ_le_succ hyear)
    omega
  · intro hlt
    by_contra hyear
    have hle : daysBeforeYear 10000 ≤ daysBeforeYear d.year :=
      daysBeforeYear_mono (by decide) (Nat.not_le.mp hyear)
    omega

theorem valid_ofDayNumber {n : Nat} (h : n < 3652059) : (ofDayNumber n).Valid := by
  have hexists := exists_ofDayNumber n
  exact valid_iff_exists.mpr ⟨hexists, hexists.year_le_iff.mpr (by rwa [dayNumber_ofDayNumber])⟩

/-! ### Days after the epoch -/

def epoch : Date := { year := 1970, month := 1, day := 1 }

theorem exists_epoch : epoch.Exists := ⟨by decide, by decide, by decide, by decide, by decide⟩

theorem dayNumber_epoch : epoch.dayNumber = epochDay := by decide

/-- A date lies so many days after the first of January 1970: counting goes from there to the date,
and for a negative number from the date to there. -/
def DaysAfterEpoch (d : Date) : Int → Prop
  | .ofNat n => next^[n] epoch = d
  | .negSucc n => next^[n + 1] d = epoch

/-- Counting gives the difference of the day numbers. -/
theorem daysAfterEpoch_iff (h : d.Exists) {days : Int} :
    d.DaysAfterEpoch days ↔ days = (d.dayNumber : Int) - epochDay := by
  have hepoch := dayNumber_epoch
  cases days with
  | ofNat n =>
    obtain ⟨hexists, hnumber⟩ := iterate_next exists_epoch n
    constructor
    · intro hcount
      rw [show next^[n] epoch = d from hcount] at hnumber
      simp only [Int.ofNat_eq_natCast]
      omega
    · intro hdays
      exact dayNumber_inj hexists h (by simp only [Int.ofNat_eq_natCast] at hdays; omega)
  | negSucc n =>
    obtain ⟨hexists, hnumber⟩ := iterate_next h (n + 1)
    constructor
    · intro hcount
      rw [show next^[n + 1] d = epoch from hcount] at hnumber
      omega
    · intro hdays
      exact dayNumber_inj hexists exists_epoch (by omega)

end Date

end CloudEvents
