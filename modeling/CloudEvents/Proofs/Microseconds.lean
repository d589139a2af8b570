import CloudEvents.Proofs.TimestampWriting

/-!
# Timestamps cut to microseconds

A timestamp counts nanoseconds and a date-time microseconds, so a timestamp that is read as a
date-time loses up to 999 nanoseconds. This module shows that it loses nothing else. The loss is
always towards the earlier microsecond, also for seconds before 1970, because the nanoseconds of a
timestamp are counted forward from its seconds, whatever the sign of these.

Both conversions go through the number of days, and both are exact on it. A valid date-time is
determined by its offset and the microseconds that its clock shows (`DateTime.eq_of_localMicros`),
and so it is enough to count: a date-time in UTC is found again from its timestamp because the
date-time of that timestamp shows the same microseconds. The range of timestamps is that of the
calendar, and so neither direction can leave the other's range.

## Main results

* `DateTime.eq_of_localMicros` — a date-time is known by its offset and its microseconds
* `DateTime.toTimestamp_of_utc` — the timestamp of a date-time in UTC
* `Timestamp.toDateTime_cuts_to_microseconds` — what a timestamp and a date-time keep of each other
-/

namespace CloudEvents

namespace DateTime

variable {d e : DateTime}

/-- The fields of a date-time are the digits of the microseconds that it shows, the days first. -/
theorem eq_of_localMicros (hd : d.Valid) (he : e.Valid) (hoffset : d.offset = e.offset)
    (h : d.localMicros = e.localMicros) : d = e := by
  have hdmicro := hd.microsecond_lt
  have hemicro := he.microsecond_lt
  rw [localMicros, localMicros, microsPerSecond] at h
  have hmicro : d.microsecond = e.microsecond := by omega
  have hseconds : d.localSeconds = e.localSeconds := by omega
  rw [localSeconds_eq, localSeconds_eq] at hseconds
  obtain ⟨hdday, hdhour, hdminute, hdsecond, -, -⟩ := hd
  obtain ⟨heday, hehour, heminute, hesecond, -, -⟩ := he
  have hday : d.date.dayNumber = e.date.dayNumber := by omega
  have hdate := Date.dayNumber_inj (Date.valid_iff_exists.mp hdday).1
    (Date.valid_iff_exists.mp heday).1 hday
  have hhour : d.hour = e.hour := by omega
  have hminute : d.minute = e.minute := by omega
  have hsecond : d.second = e.second := by omega
  cases d
  cases e
  simp_all

/-- What a clock shows on a date of the calendar is in the range of timestamps. -/
theorem valid_shown (hd : d.Valid) :
    ({ seconds := d.localSeconds, nanos := d.microsecond * 1000 } : Timestamp).Valid := by
  obtain ⟨hexists, hyear⟩ := Date.valid_iff_exists.mp hd.date_valid
  have hday := hexists.year_le_iff.mp hyear
  obtain ⟨-, hhour, hminute, hsecond, hmicro, -⟩ := hd
  have hseconds := localSeconds_eq d
  have hepoch : epochDay = 719162 := rfl
  constructor <;>
  · simp only [Timestamp.minSeconds, Timestamp.maxSeconds, Timestamp.nanosPerSecond]
    omega

/-- The timestamp of a date-time in UTC is what its clock shows. -/
theorem toTimestamp_of_utc (hd : d.Valid) (hutc : d.offset = .known 0) :
    d.toTimestamp = .ok { seconds := d.localSeconds, nanos := d.microsecond * 1000 } := by
  have hvalid := valid_shown hd
  have hmicro := hd.microsecond_lt
  have hseconds : (d.localMicros - 0).fdiv microsPerSecond = d.localSeconds := by
    rw [localMicros, microsPerSecond, Int.fdiv_eq_ediv_of_nonneg _ (by decide)]
    omega
  rw [toTimestamp_of_known hutc, hseconds, if_pos ⟨hvalid.minSeconds_le, hvalid.le_maxSeconds⟩]
  exact Timestamp.check_eq_ok_iff.mpr ⟨hvalid, rfl⟩

end DateTime

namespace Timestamp

variable {t : Timestamp}

theorem microsecond_toDateTime (ht : t.Valid) :
    (t.toDateTime.microsecond : Int) = t.nanos / 1000 := by
  have hmicro : t.nanos.fdiv 1000 = t.nanos / 1000 := Int.fdiv_eq_ediv_of_nonneg _ (by decide)
  have hnonneg : 0 ≤ t.nanos / 1000 := Int.ediv_nonneg ht.nanos_nonneg (by decide)
  rw [← hmicro] at hnonneg ⊢
  exact Int.toNat_of_nonneg hnonneg

theorem localMicros_toDateTime (ht : t.Valid) :
    t.toDateTime.localMicros = t.seconds * 1000000 + t.nanos / 1000 := by
  rw [DateTime.localMicros, localSeconds_toDateTime ht, microsecond_toDateTime ht, microsPerSecond]

/-- **What a timestamp and a date-time keep of each other.** A valid timestamp is a date-time of the
calendar in UTC, at the last whole microsecond that is not after it, and that date-time is a
timestamp with the nanoseconds cut to it. Every date-time in UTC is a valid timestamp, whose
date-time it is. -/
theorem toDateTime_cuts_to_microseconds :
    (∀ t : Timestamp, t.Valid →
        t.toDateTime.Valid ∧ t.toDateTime.offset = .known 0
        ∧ (∀ instant, t.toDateTime.NamesInstant instant ↔
            instant = t.seconds * 1000000 + t.nanos / 1000)
        ∧ t.toDateTime.toTimestamp
            = .ok { seconds := t.seconds, nanos := t.nanos - t.nanos % 1000 })
      ∧ ∀ d : DateTime, d.Valid → d.offset = .known 0 →
          ∃ t : Timestamp, d.toTimestamp = .ok t ∧ t.Valid ∧ t.toDateTime = d := by
  constructor
  · intro t ht
    have hd := valid_toDateTime ht
    refine ⟨hd, rfl, fun instant => ?_, ?_⟩
    · rw [DateTime.namesInstant_iff (Date.valid_iff_exists.mp hd.date_valid).1 rfl,
        localMicros_toDateTime ht, Int.sub_zero]
    · have hnanos : t.nanos / 1000 * 1000 = t.nanos - t.nanos % 1000 := by omega
      rw [DateTime.toTimestamp_of_utc hd rfl, localSeconds_toDateTime ht,
        microsecond_toDateTime ht, hnanos]
  · intro d hd hutc
    have ht := DateTime.valid_shown hd
    refine ⟨_, DateTime.toTimestamp_of_utc hd hutc, ht, ?_⟩
    refine DateTime.eq_of_localMicros (valid_toDateTime ht) hd hutc.symm ?_
    rw [localMicros_toDateTime ht, Int.mul_ediv_cancel _ (by decide)]
    rfl

/-- One nanosecond before 1970, the last nanosecond of year 9999, and the first microsecond of
year 1. -/
theorem toDateTime_cuts_to_microseconds_ends :
    let before : Timestamp := { seconds := -1, nanos := 999999999 }
    let last : Timestamp := { seconds := 253402300799, nanos := 999999999 }
    let first : DateTime := { date := { year := 1, month := 1, day := 1 }, microsecond := 1 }
    before.Valid ∧ before.toDateTime.NamesInstant (-1)
      ∧ before.toDateTime.toTimestamp = .ok { seconds := -1, nanos := 999999000 }
      ∧ last.Valid ∧ last.toDateTime.toTimestamp = .ok { last with nanos := 999999000 }
      ∧ first.Valid ∧ first.offset = .known 0
      ∧ ∃ t : Timestamp, first.toTimestamp = .ok t ∧ t.Valid ∧ t.toDateTime = first := by
  intro before last first
  have hbefore : before.Valid := by decide
  have hlast : last.Valid := by decide
  have hfirst : first.Valid := DateTime.isValid_iff.mp (by decide)
  obtain ⟨-, -, hinstant, hcut⟩ := toDateTime_cuts_to_microseconds.1 before hbefore
  exact ⟨hbefore, (hinstant _).mpr rfl, hcut, hlast,
    (toDateTime_cuts_to_microseconds.1 last hlast).2.2.2, hfirst, rfl,
    toDateTime_cuts_to_microseconds.2 first hfirst rfl⟩

end Timestamp

end CloudEvents
