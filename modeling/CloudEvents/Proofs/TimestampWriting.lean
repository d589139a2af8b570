import CloudEvents.Proofs.TimestampReading

/-!
# Writing timestamp texts

A timestamp is written as the date-time of its seconds in UTC, with the fewest of none, three, six
or nine fraction digits that are exact. Two things have to come out right for the text to be read as
the same timestamp. The day number of the seconds has to be a date of the calendar whose day number
it is, also for seconds before 1970, where division rounds down; and the digits that are left out
have to be zeros, because zeros are what a reader puts in their place.

What is written is in full width, and so everything known about the reading of such texts applies.

## Main definitions

* `Rfc3339.Spelling.ofTimestamp` — the text of a timestamp in its parts
* `Rfc3339.FewestDigits` — the shortest of the exact fractions

## Main results

* `Timestamp.localSeconds_toDateTime` — the date-time of a timestamp is at its seconds
* `Timestamp.ofRfc3339_toRfc3339` — the form of written timestamps, and that they are read back
-/

namespace CloudEvents

namespace Timestamp

/-! ### The date-time of a timestamp -/

variable {t : Timestamp}

theorem valid_toDateTime (ht : t.Valid) : t.toDateTime.Valid := by
  have hmin := ht.minSeconds_le
  have hmax := ht.le_maxSeconds
  have hnonneg := ht.nanos_nonneg
  have hlt := ht.nanos_lt
  have hepoch : epochDay = 719162 := rfl
  rw [minSeconds] at hmin
  rw [maxSeconds] at hmax
  rw [nanosPerSecond] at hlt
  rw [toDateTime, secondsPerDay, Int.fdiv_eq_ediv_of_nonneg _ (by decide),
    Int.fdiv_eq_ediv_of_nonneg _ (by decide), Int.fmod_eq_emod_of_nonneg _ (by decide)]
  refine ⟨Date.valid_ofDayNumber (by omega), ?_, ?_, ?_, ?_, ?_⟩
  · simp only
    omega
  · simp only
    omega
  · simp only
    omega
  · simp only
    omega
  · rintro micros ⟨⟩
    decide

/-- Days and the time of day add up to the seconds again. -/
theorem localSeconds_toDateTime (ht : t.Valid) : t.toDateTime.localSeconds = t.seconds := by
  have hmin := ht.minSeconds_le
  have hepoch : epochDay = 719162 := rfl
  have hday : t.seconds.fdiv 86400 = t.seconds / 86400 :=
    Int.fdiv_eq_ediv_of_nonneg _ (by decide)
  have hinDay : t.seconds.fmod 86400 = t.seconds % 86400 :=
    Int.fmod_eq_emod_of_nonneg _ (by decide)
  rw [minSeconds] at hmin
  rw [DateTime.localSeconds_eq]
  simp only [toDateTime, secondsPerDay, Date.dayNumber_ofDayNumber, hday, hinDay]
  omega

end Timestamp

namespace Rfc3339

/-! ### Date and time -/

namespace TimeSpelling

/-- The fields in full width. -/
def ofDateTime (d : DateTime) : TimeSpelling where
  year := Text.digits 4 d.date.year
  month := Text.digits 2 d.date.month
  day := Text.digits 2 d.date.day
  hour := Text.digits 2 d.hour
  minute := Text.digits 2 d.minute
  second := Text.digits 2 d.second

theorem fullWidth_ofDateTime (d : DateTime) : (ofDateTime d).FullWidth :=
  ⟨Text.asciiDigits_digits .., Text.asciiDigits_digits .., Text.asciiDigits_digits ..,
    Text.asciiDigits_digits .., Text.asciiDigits_digits .., Text.asciiDigits_digits ..⟩

/-- The fields are as wide as their values can be. -/
structure Fits (d : DateTime) : Prop where
  year : d.date.year < Nat.pow 10 4
  month : d.date.month < Nat.pow 10 2
  day : d.date.day < Nat.pow 10 2
  hour : d.hour < Nat.pow 10 2
  minute : d.minute < Nat.pow 10 2
  second : d.second < Nat.pow 10 2

variable {d : DateTime}

theorem fits_of_valid (hd : d.Valid) : Fits d :=
  ⟨Nat.lt_of_le_of_lt hd.date_valid.year_le (by decide),
    Nat.lt_of_le_of_lt hd.date_valid.month_le (by decide),
    Nat.lt_of_le_of_lt (day_le_of_valid hd.date_valid) (by decide),
    Nat.lt_of_lt_of_le hd.hour_lt (by decide), Nat.lt_of_lt_of_le hd.minute_lt (by decide),
    Nat.lt_of_lt_of_le hd.second_lt (by decide)⟩

theorem dateTime_ofDateTime (hd : d.Valid) :
    (ofDateTime d).dateTime = { d with microsecond := 0, offset := .known 0 } := by
  have hfits := fits_of_valid hd
  simp only [dateTime, ofDateTime, Text.decimalValue_digits, hfits.year, hfits.month, hfits.day,
    hfits.hour, hfits.minute, hfits.second]

theorem toList_toText (hd : d.Valid) :
    ({ d with microsecond := 0, offset := .absent : DateTime }.toText "T").toList
      = (ofDateTime d).text := by
  have hfits := fits_of_valid hd
  have htext : { d with microsecond := 0, offset := .absent : DateTime }.toText "T"
      = padded 4 d.date.year ++ "-" ++ padded 2 d.date.month ++ "-" ++ padded 2 d.date.day ++ "T"
          ++ padded 2 d.hour ++ ":" ++ padded 2 d.minute ++ ":" ++ padded 2 d.second ++ "" ++ "" :=
    rfl
  simp [htext, text, ofDateTime, Text.toList_padded, hfits.year, hfits.month, hfits.day,
    hfits.hour, hfits.minute, hfits.second]

end TimeSpelling

/-! ### Fraction -/

/-- The digits of a fraction are none, three, six or nine, they are exact, and no fewer are. -/
structure FewestDigits (nanos : Int) (ds : List Char) : Prop where
  length : ds.length ∈ [0, 3, 6, 9]
  exact : (nanosOfDigits ds : Int) = nanos
  least : ∀ es : List Char, es.length ∈ [0, 3, 6, 9] → (nanosOfDigits es : Int) = nanos →
    ds.length ≤ es.length

/-- How many digits are written. -/
def places (nanos : Nat) : Nat :=
  if nanos = 0 then 0 else if nanos % 1000000 = 0 then 3 else if nanos % 1000 = 0 then 6 else 9

/-- The digits that are written. -/
def fractionDigits (nanos : Nat) : List Char :=
  Text.digits (places nanos) (nanos / 10 ^ (9 - places nanos))

theorem length_fractionDigits (nanos : Nat) : (fractionDigits nanos).length = places nanos :=
  Text.length_digits ..

variable {nanos : Nat}

/-- Three cases are left where there is a fraction. -/
theorem places_of_ne_zero (h : nanos ≠ 0) :
    nanos % 1000000 = 0 ∧ places nanos = 3
      ∨ nanos % 1000000 ≠ 0 ∧ nanos % 1000 = 0 ∧ places nanos = 6
      ∨ nanos % 1000 ≠ 0 ∧ places nanos = 9 := by
  rw [places, if_neg h]
  split
  · rename_i hmillis
    exact .inl ⟨hmillis, rfl⟩
  · rename_i hmillis
    split
    · rename_i hmicros
      exact .inr (.inl ⟨hmillis, hmicros, rfl⟩)
    · rename_i hmicros
      exact .inr (.inr ⟨hmicros, rfl⟩)

/-- What is left out is zeros, and with fewer places it would not be. -/
theorem places_spec (h : nanos < 1000000000) :
    places nanos ∈ [0, 3, 6, 9] ∧ nanos % 10 ^ (9 - places nanos) = 0
      ∧ nanos / 10 ^ (9 - places nanos) < Nat.pow 10 (places nanos)
      ∧ ∀ k ∈ [0, 3, 6, 9], nanos % 10 ^ (9 - k) = 0 → places nanos ≤ k := by
  simp only [List.forall_mem_cons]
  by_cases hzero : nanos = 0
  · subst hzero
    decide
  · obtain ⟨hmillis, hplaces⟩ | ⟨hmillis, hmicros, hplaces⟩ | ⟨hmicros, hplaces⟩ :=
      places_of_ne_zero hzero <;> simp [hplaces] <;> omega

theorem fewestDigits_fractionDigits (h : nanos < 1000000000) :
    FewestDigits nanos (fractionDigits nanos) := by
  obtain ⟨hmem, hmod, hlt, hleast⟩ := places_spec h
  have hlength := length_fractionDigits nanos
  refine ⟨hlength ▸ hmem, ?_, fun es hes hexact => ?_⟩
  · rw [nanosOfDigits_eq, hlength, fractionDigits, Text.decimalValue_digits hlt,
      Nat.div_mul_cancel (Nat.dvd_of_mod_eq_zero hmod)]
  · rw [hlength]
    refine hleast _ hes ?_
    rw [← Int.ofNat_inj.mp hexact, nanosOfDigits_eq]
    exact Nat.mul_mod_left ..

theorem toList_fractionText (h : nanos < 1000000000) :
    (fractionText nanos).toList = if nanos = 0 then [] else '.' :: fractionDigits nanos := by
  by_cases hzero : nanos = 0
  · rw [fractionText, if_pos hzero, if_pos hzero]
    rfl
  · rw [fractionText, if_neg hzero, if_neg hzero, fractionDigits]
    obtain ⟨hmillis, hplaces⟩ | ⟨hmillis, hmicros, hplaces⟩ | ⟨hmicros, hplaces⟩ :=
      places_of_ne_zero hzero
    · have hlt : nanos / 1000000 < Nat.pow 10 3 := Nat.div_lt_of_lt_mul h
      rw [if_pos hmillis, hplaces, String.toList_append, Text.toList_padded (by decide) hlt]
      rfl
    · have hlt : nanos / 1000 < Nat.pow 10 6 := Nat.div_lt_of_lt_mul h
      rw [if_neg hmillis, if_pos hmicros, hplaces, String.toList_append,
        Text.toList_padded (by decide) hlt]
      rfl
    · have hmillis : nanos % 1000000 ≠ 0 := by omega
      rw [if_neg hmillis, if_neg hmicros, hplaces, String.toList_append,
        Text.toList_padded (by decide) h, Nat.sub_self, Nat.pow_zero, Nat.div_one]
      rfl

/-! ### The whole text -/

namespace Spelling

/-- The text of a timestamp in its parts. -/
def ofTimestamp (t : Timestamp) : Spelling where
  clock :=
    { time := .ofDateTime t.toDateTime
      fraction := if t.nanos.toNat = 0 then none else some (fractionDigits t.nanos.toNat) }
  zone := .utc

variable {t : Timestamp}

theorem digits_ofTimestamp (t : Timestamp) :
    (ofTimestamp t).clock.digits = fractionDigits t.nanos.toNat := by
  rw [ClockSpelling.digits, ofTimestamp]
  split
  · rename_i h
    rw [h]
    rfl
  · rfl

theorem fullWidth_ofTimestamp (t : Timestamp) : (ofTimestamp t).FullWidth := by
  refine ⟨⟨TimeSpelling.fullWidth_ofDateTime _, fun cs hcs => ?_⟩, trivial⟩
  obtain ⟨hzero, hcs⟩ := Option.ite_none_left_eq_some.mp hcs
  cases hcs
  refine ⟨places t.nanos.toNat, ?_, ?_, Text.asciiDigits_digits ..⟩ <;>
  · have := places_of_ne_zero hzero
    omega

theorem toList_toRfc3339 (ht : t.Valid) : t.toRfc3339.toList = (ofTimestamp t).text := by
  have hnanos : t.nanos.toNat < 1000000000 := by
    have hlt := ht.nanos_lt
    rw [Timestamp.nanosPerSecond] at hlt
    omega
  rw [Timestamp.toRfc3339, String.toList_append, String.toList_append,
    TimeSpelling.toList_toText (Timestamp.valid_toDateTime ht), toList_fractionText hnanos]
  rw [text, ClockSpelling.text, ofTimestamp]
  by_cases hzero : t.nanos.toNat = 0
  · simp only [if_pos hzero]
    rfl
  · simp only [if_neg hzero]
    rfl

end Spelling

end Rfc3339

namespace Timestamp

open Rfc3339

variable {t : Timestamp}

theorem dateTime_ofTimestamp (ht : t.Valid) :
    (Spelling.ofTimestamp t).clock.time.dateTime
      = { t.toDateTime with microsecond := 0, offset := .known 0 } :=
  TimeSpelling.dateTime_ofDateTime (valid_toDateTime ht)

theorem valid_dateTime_ofTimestamp (ht : t.Valid) :
    (Spelling.ofTimestamp t).clock.time.dateTime.Valid := by
  have hvalid := valid_toDateTime ht
  rw [dateTime_ofTimestamp ht]
  refine ⟨hvalid.date_valid, hvalid.hour_lt, hvalid.minute_lt, hvalid.second_lt, ?_, ?_⟩
  · exact Nat.zero_lt_succ _
  · rintro _ ⟨⟩
    decide

theorem seconds_ofTimestamp (ht : t.Valid) :
    (Spelling.ofTimestamp t).clock.time.dateTime.localSeconds
      - (Spelling.ofTimestamp t).zone.seconds = t.seconds := by
  rw [dateTime_ofTimestamp ht]
  exact (Int.sub_zero _).trans (localSeconds_toDateTime ht)

theorem fewestDigits_ofTimestamp (ht : t.Valid) :
    FewestDigits t.nanos (Spelling.ofTimestamp t).clock.digits := by
  obtain ⟨nanos, hnanos⟩ := Int.eq_ofNat_of_zero_le ht.nanos_nonneg
  have hlt := ht.nanos_lt
  rw [hnanos, nanosPerSecond] at hlt
  rw [Spelling.digits_ofTimestamp, hnanos, Int.toNat_natCast]
  exact fewestDigits_fractionDigits (by omega)

theorem toRfc3339_eq (ht : t.Valid) :
    t.toRfc3339 = String.ofList (Spelling.ofTimestamp t).text := by
  rw [← Spelling.toList_toRfc3339 ht, String.ofList_toList]

/-- A written timestamp is read back. -/
theorem ofRfc3339_written (ht : t.Valid) : ofRfc3339 t.toRfc3339 = .ok t := by
  have hnanos : ((Spelling.ofTimestamp t).clock.nanos : Int) = t.nanos :=
    (fewestDigits_ofTimestamp ht).exact
  rw [toRfc3339_eq ht,
    ofRfc3339_text (Spelling.fullWidth_ofTimestamp t) (valid_dateTime_ofTimestamp ht),
    seconds_ofTimestamp ht, hnanos, if_pos ⟨ht.minSeconds_le, ht.le_maxSeconds⟩]

/-- **The form of written timestamps, and that they are read back.** A valid timestamp is written as
a date-time of the standard in UTC, at the instant of its seconds and with the fewest exact digits
for its nanoseconds. The text is read as the same timestamp, and no other valid timestamp has it. -/
theorem ofRfc3339_toRfc3339 (ht : t.Valid) :
    (∃ s : Spelling, t.toRfc3339 = String.ofList s.text ∧ s.FullWidth ∧ s.zone = .utc
        ∧ s.clock.time.dateTime.Valid
        ∧ (∀ i, s.dateTime.NamesInstant i ↔ i = t.seconds * 1000000)
        ∧ FewestDigits t.nanos s.clock.digits)
      ∧ ofRfc3339 t.toRfc3339 = .ok t
      ∧ ∀ u : Timestamp, u.Valid → u.toRfc3339 = t.toRfc3339 → u = t := by
  have hd := valid_dateTime_ofTimestamp ht
  refine ⟨⟨Spelling.ofTimestamp t, toRfc3339_eq ht, Spelling.fullWidth_ofTimestamp t, rfl, hd,
    fun i => ?_, fewestDigits_ofTimestamp ht⟩, ofRfc3339_written ht, fun u hu htext => ?_⟩
  · rw [namesInstant_dateTime_iff hd, seconds_ofTimestamp ht]
  · have hread := ofRfc3339_written hu
    rw [htext, ofRfc3339_written ht] at hread
    exact (Except.ok.inj hread).symm

/-- A millionth of a second into the last second before 1970. -/
theorem ofRfc3339_toRfc3339_before :
    let t : Timestamp := { seconds := -1, nanos := 1000 }
    t.Valid ∧ t.toRfc3339 = "1969-12-31T23:59:59.000001Z"
      ∧ ofRfc3339 "1969-12-31T23:59:59.000001Z" = .ok t := by
  intro t
  have ht : t.Valid := by decide
  have htext : t.toRfc3339 = "1969-12-31T23:59:59.000001Z" := by decide +kernel
  have hread := (ofRfc3339_toRfc3339 ht).2.1
  rw [htext] at hread
  exact ⟨ht, htext, hread⟩

end Timestamp

end CloudEvents
