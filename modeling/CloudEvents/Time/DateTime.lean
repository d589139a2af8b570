import CloudEvents.Number.Format
import CloudEvents.Time.Calendar
import CloudEvents.Timestamp

/-!
# Date-times

A date-time is a reading of a calendar and a clock, to the microsecond, with what is known of its
offset from UTC. It names an instant when the offset is known, and a timestamp can hold that instant
when it falls into years 1 to 9999 of UTC.

The nanoseconds of the timestamp are those of the clock reading itself, not those of the instant:
the two differ when the offset is not a whole number of seconds.

## Main definitions

* `DateTime`, `DateTime.Valid`
* `DateTime.toTimestamp` — the instant of a date-time
* `Timestamp.toDateTime` — an instant read in UTC, cut to microseconds
* `DateTime.toText` — date, separator, time and offset
* `DateTime.literal` — the date-time as the call that makes it
-/

namespace CloudEvents

/-- What is known of an offset from UTC, in microseconds. -/
inductive Offset where
  /-- There is no time zone. -/
  | absent
  /-- There is a time zone, but it does not tell its offset. -/
  | unknown
  | known (microseconds : Int)
  deriving DecidableEq

structure DateTime where
  date : Date
  hour : Nat := 0
  minute : Nat := 0
  second : Nat := 0
  microsecond : Nat := 0
  offset : Offset := .known 0
  deriving DecidableEq

def microsPerSecond : Int := 1000000

def secondsPerDay : Int := 86400

namespace DateTime

/-- An existing date, a time of day, and an offset of less than a day. -/
structure Valid (d : DateTime) : Prop where
  date_valid : d.date.Valid
  hour_lt : d.hour < 24
  minute_lt : d.minute < 60
  second_lt : d.second < 60
  microsecond_lt : d.microsecond < 1000000
  offset_lt : ∀ micros, d.offset = .known micros → micros.natAbs < 86400000000

/-- Tests `Valid`. -/
def isValid (d : DateTime) : Bool :=
  d.date.Valid && d.hour < 24 && d.minute < 60 && d.second < 60 && d.microsecond < 1000000
    && match d.offset with
      | .known micros => micros.natAbs < 86400000000
      | _ => true

theorem isValid_iff {d : DateTime} : d.isValid = true ↔ d.Valid := by
  constructor
  · intro h
    simp only [isValid, Bool.and_eq_true, decide_eq_true_eq] at h
    obtain ⟨⟨⟨⟨⟨hd, hh⟩, hm⟩, hs⟩, hu⟩, ho⟩ := h
    exact ⟨hd, hh, hm, hs, hu, fun micros he => by simpa [he] using ho⟩
  · rintro ⟨hd, hh, hm, hs, hu, ho⟩
    simp only [isValid, Bool.and_eq_true, decide_eq_true_eq]
    refine ⟨⟨⟨⟨⟨hd, hh⟩, hm⟩, hs⟩, hu⟩, ?_⟩
    cases he : d.offset with
    | known micros => simpa using ho micros he
    | absent => rfl
    | unknown => rfl

/-! ### Text -/

private def dateText (d : Date) : String :=
  padded 4 d.year ++ "-" ++ padded 2 d.month ++ "-" ++ padded 2 d.day

/-- Microseconds as six digits after a point, or nothing. -/
private def microsText (micros : Nat) : String :=
  if micros = 0 then "" else "." ++ padded 6 micros

/-- The sign, hours and minutes of an offset, then seconds and microseconds as far as needed. -/
private def offsetText (micros : Int) : String :=
  let size := micros.natAbs
  let seconds := size / 1000000
  (if micros < 0 then "-" else "+") ++ padded 2 (seconds / 3600) ++ ":"
    ++ padded 2 (seconds / 60 % 60)
    ++ if seconds % 60 = 0 ∧ size % 1000000 = 0 then ""
      else ":" ++ padded 2 (seconds % 60) ++ microsText (size % 1000000)

/-- Date and time with a separator between them, the microseconds unless they are zero, and the
offset if it is known. -/
def toText (separator : String) (d : DateTime) : String :=
  dateText d.date ++ separator ++ padded 2 d.hour ++ ":" ++ padded 2 d.minute ++ ":"
    ++ padded 2 d.second ++ microsText d.microsecond
    ++ match d.offset with
      | .known micros => offsetText micros
      | _ => ""

/-! ### Calls -/

/-- A call with its arguments. -/
private def callText (name : String) (arguments : List String) : String :=
  name ++ "(" ++ ", ".intercalate arguments ++ ")"

/-- A span of time, by those of its parts that are not zero. All but the days are positive. -/
private def spanLiteral (micros : Int) : String :=
  let seconds := micros.fdiv microsPerSecond
  let parts :=
    [("days", seconds.fdiv secondsPerDay), ("seconds", seconds.fmod secondsPerDay),
     ("microseconds", micros.fmod microsPerSecond)]
  let arguments := parts.filterMap fun (name, count) =>
    if count = 0 then none else some (name ++ "=" ++ toString count)
  callText "datetime.timedelta" arguments

/-- The zone of a known offset. -/
private def zoneLiteral (micros : Int) : String :=
  if micros = 0 then "datetime.timezone.utc"
  else callText "datetime.timezone" [spanLiteral micros]

/-- The date-time as the call that makes it. Zeros are left out at the end of the time, but not the
hour and the minute. -/
def literal (d : DateTime) : String :=
  let fine := [d.second, d.microsecond].reverse.dropWhile (· = 0)
  let numbers := [d.date.year, d.date.month, d.date.day, d.hour, d.minute] ++ fine.reverse
  let zone := match d.offset with
    | .known micros => ["tzinfo=" ++ zoneLiteral micros]
    | _ => []
  callText "datetime.datetime" (numbers.map (fun n => toString n) ++ zone)

/-! ### Instants -/

/-- The whole seconds from the start of 1970 to the clock reading, the offset not regarded. -/
def localSeconds (d : DateTime) : Int :=
  ((d.date.dayNumber : Int) - epochDay) * secondsPerDay + d.hour * 3600 + d.minute * 60 + d.second

/-- The microseconds from the start of 1970 to the clock reading, the offset not regarded. -/
def localMicros (d : DateTime) : Int := d.localSeconds * microsPerSecond + d.microsecond

/-- The instant of the date-time if its offset is known, in microseconds. -/
def instantMicros? (d : DateTime) : Option Int :=
  match d.offset with
  | .known micros => some (d.localMicros - micros)
  | _ => none

/-- Equality of date-times: as instants where both offsets are known, as clock readings where
neither is. -/
def same (a b : DateTime) : Bool :=
  match a.instantMicros?, b.instantMicros? with
  | some x, some y => x = y
  | none, none => a.localMicros = b.localMicros
  | _, _ => false

/-- The instant of a date-time, if it has one and it lies in years 1 to 9999 of UTC. -/
def toTimestamp (d : DateTime) : Except (List Violation) Timestamp :=
  match d.instantMicros? with
  | some micros =>
    let seconds := micros.fdiv microsPerSecond
    if Timestamp.minSeconds ≤ seconds ∧ seconds ≤ Timestamp.maxSeconds then
      Timestamp.check { seconds, nanos := d.microsecond * 1000 }
    else .error [.unrepresentable (d.toText " ")]
  | none => .error [.unknownOffset]

end DateTime

/-- The instant, read in UTC. Digits below the microsecond are cut. -/
def Timestamp.toDateTime (t : Timestamp) : DateTime :=
  let inDay := (t.seconds.fmod secondsPerDay).toNat
  { date := Date.ofDayNumber (t.seconds.fdiv secondsPerDay + epochDay).toNat
    hour := inDay / 3600
    minute := inDay / 60 % 60
    second := inDay % 60
    microsecond := (t.nanos.fdiv 1000).toNat }

end CloudEvents
