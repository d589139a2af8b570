import CloudEvents.Construction.Values
import CloudEvents.Proofs.Days

/-!
# Instants of date-times

A date-time with a known offset names one instant, and `DateTime.NamesInstant` says which, by
counting: days from the epoch to the date, then the time of day, less what the clock is ahead of
UTC. This module compares a timestamp that is made of a date-time with that instant.

Its seconds are those of the instant, so the offset is taken off exactly, over the ends of days and
years and at both ends of the calendar. Its nanoseconds are those of the clock reading. The two
agree if the offset is a whole number of seconds, which shifts no fraction, and only then: for an
offset such as half a second the timestamp is another instant than the date-time
(`DateTime.not_toTimestamp_keeps_instant`).

## Main definitions

* `DateTime.NamesInstant` — the instant of a date-time, in microseconds after the start of 1970

## Main results

* `DateTime.toTimestamp_keeps_instant_iff` — when a timestamp is made, and when it is the instant
-/

namespace CloudEvents

namespace DateTime

/-! ### The instant of a date-time -/

/-- Days, hours, minutes and seconds after the start of 1970 by the clock, to the microsecond. A
clock that is ahead of UTC shows each instant so much later. -/
def NamesInstant (d : DateTime) (instant : Int) : Prop :=
  ∃ days ahead, d.date.DaysAfterEpoch days ∧ d.offset = .known ahead
    ∧ instant = (days * 86400 + d.hour * 3600 + d.minute * 60 + d.second) * 1000000
        + d.microsecond - ahead

theorem localSeconds_eq (d : DateTime) :
    d.localSeconds = ((d.date.dayNumber : Int) - epochDay) * 86400 + d.hour * 3600 + d.minute * 60
      + d.second :=
  rfl

theorem namesInstant_iff {d : DateTime} (hd : d.date.Exists) {ahead : Int}
    (hahead : d.offset = .known ahead) {instant : Int} :
    d.NamesInstant instant ↔ instant = d.localMicros - ahead := by
  constructor
  · rintro ⟨days, ahead', hdays, hahead', rfl⟩
    cases hahead.symm.trans hahead'
    rw [(Date.daysAfterEpoch_iff hd).mp hdays]
    rfl
  · rintro rfl
    exact ⟨_, ahead, (Date.daysAfterEpoch_iff hd).mpr rfl, hahead, rfl⟩

/-! ### Its timestamp -/

variable {d : DateTime} {ahead : Int}

theorem toTimestamp_of_known (hahead : d.offset = .known ahead) :
    d.toTimestamp =
      if Timestamp.minSeconds ≤ (d.localMicros - ahead).fdiv microsPerSecond
          ∧ (d.localMicros - ahead).fdiv microsPerSecond ≤ Timestamp.maxSeconds then
        Timestamp.check
          { seconds := (d.localMicros - ahead).fdiv microsPerSecond, nanos := d.microsecond * 1000 }
      else .error [.unrepresentable (d.toText " ")] := by
  rw [toTimestamp, instantMicros?, hahead]

/-- The last whole second before an instant is in range if the instant is. -/
theorem fdiv_microsPerSecond_mem_iff (instant : Int) :
    (Timestamp.minSeconds ≤ instant.fdiv microsPerSecond
      ∧ instant.fdiv microsPerSecond ≤ Timestamp.maxSeconds)
    ↔ Timestamp.minSeconds * 1000000 ≤ instant
      ∧ instant < (Timestamp.maxSeconds + 1) * 1000000 := by
  rw [microsPerSecond, Int.fdiv_eq_ediv_of_nonneg _ (by decide), Timestamp.minSeconds,
    Timestamp.maxSeconds]
  omega

/-- The fraction of the clock reading is that of the instant if the offset has none. -/
theorem eq_instant_iff (d : DateTime) (ahead : Int) (hmicrosecond : d.microsecond < 1000000) :
    1000000 * (d.localMicros - ahead).fdiv microsPerSecond + d.microsecond = d.localMicros - ahead
      ↔ ahead % 1000000 = 0 := by
  rw [microsPerSecond, Int.fdiv_eq_ediv_of_nonneg _ (by decide), localMicros, microsPerSecond]
  omega

/-- **When a timestamp keeps the instant.** A date-time with a known offset names one instant. If it
lies in years 1 to 9999 of UTC, the date-time is a timestamp with the whole seconds of the instant
and the microseconds of the clock reading, and this is the instant exactly if the offset is a whole
number of seconds. Otherwise the date-time is refused as it is written. An attribute value holds the
same timestamp or is refused alike. -/
theorem toTimestamp_keeps_instant_iff (hd : d.Valid) (hahead : d.offset = .known ahead) :
    ∃ instant : Int, (∀ i, d.NamesInstant i ↔ i = instant)
      ∧ (Timestamp.minSeconds * 1000000 ≤ instant ∧ instant < (Timestamp.maxSeconds + 1) * 1000000 →
          ∃ t : Timestamp, d.toTimestamp = .ok t ∧ t.Valid
            ∧ 1000000 * t.seconds ≤ instant ∧ instant < 1000000 * (t.seconds + 1)
            ∧ t.nanos = 1000 * d.microsecond
            ∧ (1000000 * t.seconds + t.nanos / 1000 = instant ↔ ahead % 1000000 = 0))
      ∧ (¬ (Timestamp.minSeconds * 1000000 ≤ instant
            ∧ instant < (Timestamp.maxSeconds + 1) * 1000000) →
          d.toTimestamp = .error [.unrepresentable (d.toText " ")])
      ∧ AttributeValue.create .timestamp (.dateTime d)
          = (d.toTimestamp.map AttributeValue.timestamp).mapError .invalid := by
  have hexists := (Date.valid_iff_exists.mp hd.date_valid).1
  have hmicrosecond := hd.microsecond_lt
  refine ⟨d.localMicros - ahead, fun _ => namesInstant_iff hexists hahead, ?_, ?_, rfl⟩
  · intro hrange
    have hseconds := (fdiv_microsPerSecond_mem_iff _).mpr hrange
    let t : Timestamp :=
      { seconds := (d.localMicros - ahead).fdiv microsPerSecond, nanos := d.microsecond * 1000 }
    have hvalid : t.Valid := by
      refine ⟨hseconds.1, hseconds.2, ?_, ?_⟩ <;> simp only [t, Timestamp.nanosPerSecond] <;> omega
    have hfloor : t.seconds = (d.localMicros - ahead) / 1000000 :=
      Int.fdiv_eq_ediv_of_nonneg _ (by decide)
    have hnanos : t.nanos / 1000 = d.microsecond := Int.mul_ediv_cancel _ (by decide)
    refine ⟨t, ?_, hvalid, by omega, by omega, Int.mul_comm .., ?_⟩
    · rw [toTimestamp_of_known hahead, if_pos hseconds]
      exact Timestamp.check_eq_ok_iff.mpr ⟨hvalid, rfl⟩
    · rw [hnanos]
      exact eq_instant_iff d ahead hmicrosecond
  · intro hrange
    rw [toTimestamp_of_known hahead, if_neg (mt (fdiv_microsPerSecond_mem_iff _).mp hrange)]

/-- A quarter of a second past half past two, by a clock that is two hours ahead. -/
theorem toTimestamp_keeps_instant_iff_ahead :
    let d : DateTime :=
      { date := { year := 2024, month := 5, day := 1 }, hour := 14, minute := 30, second := 15
        microsecond := 250000, offset := .known 7200000000 }
    d.Valid ∧ d.offset = .known 7200000000 ∧ d.NamesInstant 1714566615250000
      ∧ ∃ t : Timestamp, d.toTimestamp = .ok t ∧ t.Valid ∧ t.nanos = 250000000
        ∧ 1000000 * t.seconds + t.nanos / 1000 = 1714566615250000
        ∧ AttributeValue.create .timestamp (.dateTime d) = .ok (.timestamp t) := by
  intro d
  have hvalid : d.Valid := isValid_iff.mp (by decide)
  obtain ⟨instant, hinstant, htimestamp, -, hattribute⟩ := toTimestamp_keeps_instant_iff hvalid rfl
  have hnamed : d.NamesInstant 1714566615250000 :=
    (namesInstant_iff (Date.valid_iff_exists.mp hvalid.date_valid).1 rfl).mpr (by decide)
  obtain rfl := (hinstant _).mp hnamed
  obtain ⟨t, ht, htvalid, -, -, hnanos, hkeeps⟩ := htimestamp (by decide)
  refine ⟨hvalid, rfl, hnamed, t, ht, htvalid, hnanos.trans (by decide), hkeeps.mpr (by decide), ?_⟩
  rw [hattribute, ht]
  rfl

/-- **Not every timestamp keeps the instant.** Six tenths of a second past midnight, by a clock that
is half a second ahead, is one tenth past midnight and is made six tenths. -/
theorem not_toTimestamp_keeps_instant :
    let d : DateTime :=
      { date := { year := 2000, month := 1, day := 1 }, microsecond := 600000
        offset := .known 500000 }
    d.Valid ∧ d.NamesInstant 946684800100000
      ∧ d.toTimestamp = .ok { seconds := 946684800, nanos := 600000000 }
      ∧ (1000000 * 946684800 + 600000000 / 1000 : Int) ≠ 946684800100000 := by
  intro d
  have hvalid : d.Valid := isValid_iff.mp (by decide)
  have hnamed : d.NamesInstant 946684800100000 :=
    (namesInstant_iff (Date.valid_iff_exists.mp hvalid.date_valid).1 rfl).mpr (by decide)
  exact ⟨hvalid, hnamed, by decide +kernel, by decide⟩

end DateTime

end CloudEvents
