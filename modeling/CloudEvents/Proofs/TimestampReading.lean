import CloudEvents.Proofs.Instants
import CloudEvents.Proofs.RoundingError
import CloudEvents.Proofs.TimestampParts

/-!
# Reading timestamp texts

What is read as a timestamp is more than RFC 3339 allows. A text that is read falls into the parts
of one spelling, and every part may depart from the standard in its own way: fields of one digit,
digits of other scripts, a fraction with an exponent, an offset that is any pair of integers. The
first half of this module puts the parts together and says of every text what comes of it.

The second half is about the standard. `Spelling.FullWidth` is its grammar: every field with all its
digits, the digits those of ASCII. As a text has one spelling, this decides whether it is a
date-time of the standard, and such a text is read as exactly what it says, to the last digit of its
fraction.

## Main definitions

* `Rfc3339.Spelling`, `Rfc3339.Spelling.Names` — the parts of a text, and the timestamp they name
* `Rfc3339.Spelling.FullWidth`, `IsRfc3339` — the grammar of the standard

## Main results

* `Timestamp.ofRfc3339_cases` — what comes of any text
* `Timestamp.ofRfc3339_strictness` — which texts are read, and which of them the standard allows
* `Timestamp.ofRfc3339_of_fullWidth` — what the standard allows is read as what it says
-/

namespace CloudEvents

namespace Rfc3339

/-! ### Whole texts -/

/-- A text begins with a date and a time that are read, and a zone follows. -/
structure Opens (cs : List Char) (clock : ClockSpelling) (zone : List Char) (d : DateTime)
    (f : Text.Decimal) : Prop where
  text : cs = clock.text ++ zone
  follows : ZoneFollows clock.text zone
  apart : clock.Apart
  reads : clock.Reads d f

/-- The parts of a whole text. -/
structure Spelling where
  clock : ClockSpelling
  zone : Zone

namespace Spelling

def text (s : Spelling) : List Char := s.clock.text ++ s.zone.text

/-- The parts are where they are looked for. -/
structure Apart (s : Spelling) : Prop where
  clock : s.clock.Apart
  zone : s.zone.Apart
  follows : ZoneFollows s.clock.text s.zone.text

/-- The parts are read as a clock reading, a fraction and an offset that make up a timestamp. -/
structure Names (s : Spelling) (t : Timestamp) : Prop where
  reads : ∃ d f ahead, s.clock.Reads d f ∧ s.zone.Reads ahead ∧ nanosOf? f = some t.nanos
    ∧ t.seconds = d.localSeconds - ahead
  valid : t.Valid

/-- A text has one spelling. -/
theorem text_inj {s s' : Spelling} (h : s.Apart) (h' : s'.Apart) (heq : s.text = s'.text) :
    s = s' := by
  have hsplit := splitZone?_append h.follows
  rw [← text, heq, text, splitZone?_append h'.follows] at hsplit
  obtain ⟨hclock, hzone⟩ := Prod.mk.inj (Option.some.inj hsplit)
  have hclock := ClockSpelling.text_inj h.clock h'.clock hclock.symm
  have hzone := Zone.text_inj h.zone h'.zone hzone.symm
  cases s
  cases s'
  simp_all

end Spelling

theorem assemble?_eq_some_iff {d : DateTime} {nanos : Int} {before zone : List Char}
    {t : Timestamp} (h : ZoneFollows before zone) :
    assemble? d nanos zone = some t
      ↔ ∃ z : Zone, ∃ ahead, zone = z.text ∧ z.Apart ∧ z.Reads ahead
          ∧ t = { seconds := d.localSeconds - ahead, nanos } ∧ t.Valid := by
  rw [assemble?, Option.bind_eq_bind, Option.bind_eq_some_iff]
  simp only [zoneSeconds?_eq_some_iff h, Option.ite_none_right_eq_some, Option.some.injEq]
  constructor
  · rintro ⟨ahead, ⟨z, hz, hapart, hreads⟩, hvalid, rfl⟩
    exact ⟨z, ahead, hz, hapart, hreads, rfl, hvalid⟩
  · rintro ⟨z, ahead, hz, hapart, hreads, rfl, hvalid⟩
    exact ⟨ahead, ⟨z, hz, hapart, hreads⟩, hvalid, rfl⟩

end Rfc3339

namespace Timestamp

open Rfc3339

variable {text : String}

theorem ofRfc3339_of_opens {clock : ClockSpelling} {zone : List Char} {d : DateTime}
    {f : Text.Decimal} (h : Opens text.toList clock zone d f) :
    ofRfc3339 text = (nanosOf? f).elim (.error (.misuse .infiniteFraction)) fun nanos =>
      ((assemble? d nanos zone).map .ok).getD (.error (.invalid [.notRfc3339 text])) := by
  have hsplit : splitZone? text.toList = some (clock.text, zone) :=
    splitZone?_eq_some_iff.mpr ⟨h.text, h.follows⟩
  have hlocal : localParts? clock.text = some (d, f) :=
    localParts?_eq_some_iff.mpr ⟨clock, rfl, h.apart, h.reads⟩
  simp only [ofRfc3339, hsplit, hlocal]
  cases nanosOf? f <;> rfl

/-- A text that does not open is refused. -/
theorem exists_opens_of_ne (h : ofRfc3339 text ≠ .error (.invalid [.notRfc3339 text])) :
    ∃ clock zone d f, Opens text.toList clock zone d f := by
  unfold ofRfc3339 at h
  split at h
  · exact absurd rfl h
  · rename_i before zone hsplit
    obtain ⟨htext, hfollows⟩ := splitZone?_eq_some_iff.mp hsplit
    split at h
    · exact absurd rfl h
    · rename_i d f hlocal
      obtain ⟨clock, rfl, hapart, hreads⟩ := localParts?_eq_some_iff.mp hlocal
      exact ⟨clock, zone, d, f, htext, hfollows, hapart, hreads⟩

/-- **What comes of any text**: the timestamp that it names, a refusal, or a misuse. -/
theorem ofRfc3339_cases (text : String) :
    (∃ t, ofRfc3339 text = .ok t
        ∧ ∃ s : Spelling, text.toList = s.text ∧ s.Apart ∧ s.Names t)
      ∨ ofRfc3339 text = .error (.invalid [.notRfc3339 text])
      ∨ (ofRfc3339 text = .error (.misuse .infiniteFraction)
        ∧ ∃ clock zone d f, Opens text.toList clock zone d f ∧ nanosOf? f = none) := by
  by_cases h : ofRfc3339 text = .error (.invalid [.notRfc3339 text])
  · exact .inr (.inl h)
  obtain ⟨clock, zone, d, f, hopens⟩ := exists_opens_of_ne h
  rw [ofRfc3339_of_opens hopens]
  cases hnanos : nanosOf? f with
  -- the fraction comes before the zone, so this happens also where the zone is unreadable
  | none => exact .inr (.inr ⟨rfl, clock, zone, d, f, hopens, hnanos⟩)
  | some nanos =>
    cases hassemble : assemble? d nanos zone with
    | none =>
      rw [Option.elim_some, hassemble]
      exact .inr (.inl rfl)
    | some t =>
      obtain ⟨z, ahead, rfl, hapart, hreads, rfl, hvalid⟩ :=
        (assemble?_eq_some_iff hopens.follows).mp hassemble
      rw [Option.elim_some, hassemble]
      exact .inl ⟨_, rfl, ⟨clock, z⟩, hopens.text, ⟨hopens.apart, hapart, hopens.follows⟩,
        ⟨⟨d, f, ahead, hopens.reads, hreads, hnanos, rfl⟩, hvalid⟩⟩

theorem opens_of_apart {s : Spelling} (htext : text.toList = s.text) (hapart : s.Apart)
    {d : DateTime} {f : Text.Decimal} (hreads : s.clock.Reads d f) :
    Opens text.toList s.clock s.zone.text d f :=
  ⟨htext, hapart.follows, hapart.clock, hreads⟩

/-- **Which texts are read**, and as which timestamp. -/
theorem ofRfc3339_eq_ok_iff {t : Timestamp} :
    ofRfc3339 text = .ok t ↔ ∃ s : Spelling, text.toList = s.text ∧ s.Apart ∧ s.Names t := by
  constructor
  · intro h
    rcases ofRfc3339_cases text with ⟨u, hu, hs⟩ | hrefused | ⟨hmisuse, -⟩
    · cases h.symm.trans hu
      exact hs
    · cases h.symm.trans hrefused
    · cases h.symm.trans hmisuse
  · rintro ⟨s, htext, hapart, ⟨⟨d, f, ahead, hclock, hzone, hnanos, hseconds⟩, hvalid⟩⟩
    have hassemble : assemble? d t.nanos s.zone.text = some t :=
      (assemble?_eq_some_iff hapart.follows).mpr
        ⟨s.zone, ahead, rfl, hapart.zone, hzone, by rw [← hseconds], hvalid⟩
    rw [ofRfc3339_of_opens (opens_of_apart htext hapart hclock), hnanos, Option.elim_some,
      hassemble]
    rfl

end Timestamp

/-! ### Full width -/

namespace Rfc3339

namespace TimeSpelling

/-- Four digits for the year and two for every other field. -/
structure FullWidth (s : TimeSpelling) : Prop where
  year : Text.AsciiDigits 4 s.year
  month : Text.AsciiDigits 2 s.month
  day : Text.AsciiDigits 2 s.day
  hour : Text.AsciiDigits 2 s.hour
  minute : Text.AsciiDigits 2 s.minute
  second : Text.AsciiDigits 2 s.second

/-- The date-time that the digits write. -/
def dateTime (s : TimeSpelling) : DateTime where
  date :=
    { year := Text.decimalValue s.year, month := Text.decimalValue s.month
      day := Text.decimalValue s.day }
  hour := Text.decimalValue s.hour
  minute := Text.decimalValue s.minute
  second := Text.decimalValue s.second

variable {s : TimeSpelling}

/-- There are digits and separators in the text. -/
theorem FullWidth.not_mem_text (h : s.FullWidth) {c : Char} (hc : c.isDigit = false)
    (hseparator : c ≠ '-' ∧ c ≠ 'T' ∧ c ≠ ':') : c ∉ s.text := by
  obtain ⟨hminus, ht, hcolon⟩ := hseparator
  exact not_mem_append_cons (h.year.not_mem hc) hminus <|
    not_mem_append_cons (h.month.not_mem hc) hminus <|
    not_mem_append_cons (h.day.not_mem hc) ht <|
    not_mem_append_cons (h.hour.not_mem hc) hcolon <|
    not_mem_append_cons (h.minute.not_mem hc) hcolon (h.second.not_mem hc)

theorem FullWidth.apart (h : s.FullWidth) : s.Apart :=
  ⟨h.year.not_mem (by decide), h.month.not_mem (by decide), h.day.not_mem (by decide),
    h.hour.not_mem (by decide), h.minute.not_mem (by decide),
    h.not_mem_text (by decide) (by decide)⟩

theorem FullWidth.reads (h : s.FullWidth) (hd : s.dateTime.Valid) : s.Reads s.dateTime :=
  ⟨h.year.length, .of_isDigit h.year.isDigit, .of_asciiDigits h.month,
    .inl (.of_asciiDigits h.day), hd.date_valid, hd.hour_lt, .of_asciiDigits h.hour, hd.minute_lt,
    .of_asciiDigits h.minute, hd.second_lt, .of_asciiDigits h.second, rfl, rfl⟩

end TimeSpelling

/-- The nanoseconds of a fraction of a second: its digits, with zeros after them up to nine. -/
def nanosOfDigits (ds : List Char) : Nat :=
  Text.decimalValue (ds ++ List.replicate (9 - ds.length) '0')

theorem nanosOfDigits_eq (ds : List Char) :
    nanosOfDigits ds = Text.decimalValue ds * 10 ^ (9 - ds.length) :=
  Text.decimalValue_append_zeros ..

namespace ClockSpelling

/-- One to nine digits after the point, if there is a point. -/
structure FullWidth (s : ClockSpelling) : Prop where
  time : s.time.FullWidth
  fraction : ∀ cs, s.fraction = some cs → ∃ width, 1 ≤ width ∧ width ≤ 9 ∧ Text.AsciiDigits width cs

/-- The fraction in nanoseconds. -/
def nanos (s : ClockSpelling) : Nat := nanosOfDigits s.digits

variable {s : ClockSpelling}

theorem FullWidth.digits (h : s.FullWidth) :
    s.digits.length ≤ 9 ∧ ∀ c ∈ s.digits, c.isDigit = true := by
  cases hfraction : s.fraction with
  | none =>
    rw [ClockSpelling.digits, hfraction]
    exact ⟨Nat.zero_le 9, fun c hc => nomatch hc⟩
  | some cs =>
    obtain ⟨width, -, hwidth, hcs⟩ := h.fraction cs hfraction
    rw [ClockSpelling.digits, hfraction]
    exact ⟨hcs.length.trans_le hwidth, hcs.isDigit⟩

theorem FullWidth.not_mem_text (h : s.FullWidth) {c : Char} (hc : c.isDigit = false)
    (hseparator : c ≠ '-' ∧ c ≠ 'T' ∧ c ≠ ':') (hpoint : c ≠ '.') : c ∉ s.text := by
  have htime := h.time.not_mem_text hc hseparator
  rw [text]
  cases hfraction : s.fraction with
  | none => rwa [List.append_nil]
  | some cs =>
    obtain ⟨width, -, -, hcs⟩ := h.fraction cs hfraction
    exact not_mem_append_cons htime hpoint (hcs.not_mem hc)

theorem FullWidth.apart (h : s.FullWidth) : s.Apart :=
  ⟨h.time.apart, h.time.not_mem_text (by decide) (by decide)⟩

theorem FullWidth.reads (h : s.FullWidth) (hd : s.time.dateTime.Valid) :
    s.Reads s.time.dateTime
      { digits := Text.decimalValue s.digits, scale := s.digits.length, exponent := 0 } :=
  ⟨h.time.reads hd, h.digits.1, .of_isDigit h.digits.2⟩

theorem FullWidth.nanosOf?_digits (h : s.FullWidth) :
    nanosOf? { digits := Text.decimalValue s.digits, scale := s.digits.length, exponent := 0 }
      = some (s.nanos : Int) := by
  rw [nanosOf?_of_digits h.digits.1 (Text.eq_digits_decimalValue h.digits.2).2, nanos,
    nanosOfDigits_eq]

theorem FullWidth.nanos_lt (h : s.FullWidth) : s.nanos < 1000000000 := by
  have hlt := (Text.eq_digits_decimalValue h.digits.2).2
  have hpow : 10 ^ s.digits.length * 10 ^ (9 - s.digits.length) = 1000000000 := by
    rw [← Nat.pow_add, Nat.add_sub_cancel' h.digits.1]
  rw [nanos, nanosOfDigits_eq, ← hpow]
  exact Nat.mul_lt_mul_of_pos_right hlt (by positivity)

end ClockSpelling

namespace Zone

/-- Two digits for the hours up to 23 and two for the minutes up to 59. -/
def FullWidth : Zone → Prop
  | utc => True
  | offset _ hours minutes =>
    Text.AsciiDigits 2 hours ∧ Text.AsciiDigits 2 minutes ∧ Text.decimalValue hours ≤ 23
      ∧ Text.decimalValue minutes ≤ 59

/-- The seconds ahead of UTC that the digits write. -/
def seconds : Zone → Int
  | utc => 0
  | offset ahead hours minutes =>
    let size : Int := (Text.decimalValue hours * 60 + Text.decimalValue minutes) * 60
    if ahead then size else -size

variable {z : Zone}

theorem FullWidth.apart (h : z.FullWidth) : z.Apart := by
  cases z with
  | utc => trivial
  | offset ahead hours minutes => exact h.1.not_mem (by decide)

theorem FullWidth.reads (h : z.FullWidth) : z.Reads z.seconds := by
  cases z with
  | utc => rfl
  | offset ahead hours minutes =>
    obtain ⟨hhours, hminutes, -, -⟩ := h
    have loose {cs : List Char} (hcs : Text.AsciiDigits 2 cs) :
        Text.LooseInteger cs (Text.decimalValue cs) :=
      .of_isRow (hcs.isRow (by decide)) (hcs.length.trans_le (by decide))
    exact ⟨_, _, loose hhours, loose hminutes, rfl⟩

/-- A text without the marks of a zone has it where it begins. -/
theorem FullWidth.follows (h : z.FullWidth) {before : List Char} (hutc : 'Z' ∉ before)
    (hahead : '+' ∉ before) : ZoneFollows before z.text := by
  cases z with
  | utc => exact .utc hutc
  | offset ahead hours minutes =>
    obtain ⟨hhours, hminutes, -, -⟩ := h
    have hrest {c : Char} (hc : c.isDigit = false) (hcolon : c ≠ ':') :
        c ∉ hours ++ ':' :: minutes :=
      not_mem_append_cons (hhours.not_mem hc) hcolon (hminutes.not_mem hc)
    have hutc' := hrest (c := 'Z') (by decide) (by decide)
    have hahead' := hrest (c := '+') (by decide) (by decide)
    have hbehind' := hrest (c := '-') (by decide) (by decide)
    cases ahead with
    | false =>
      exact .behind (not_mem_append_cons hutc (by decide) hutc')
        (not_mem_append_cons hahead (by decide) hahead') hbehind'
    | true => exact .ahead (not_mem_append_cons hutc (by decide) hutc') hahead

end Zone

namespace Spelling

/-- The grammar of the standard. -/
structure FullWidth (s : Spelling) : Prop where
  clock : s.clock.FullWidth
  zone : s.zone.FullWidth

/-- The date-time that the digits write, to the second. -/
def dateTime (s : Spelling) : DateTime :=
  { s.clock.time.dateTime with offset := .known (s.zone.seconds * microsPerSecond) }

variable {s : Spelling}

theorem FullWidth.apart (h : s.FullWidth) : s.Apart :=
  ⟨h.clock.apart, h.zone.apart,
    h.zone.follows (h.clock.not_mem_text (by decide) (by decide) (by decide))
      (h.clock.not_mem_text (by decide) (by decide) (by decide))⟩

end Spelling

end Rfc3339

/-- The text is a date-time of the standard. -/
def IsRfc3339 (text : String) : Prop :=
  ∃ s : Rfc3339.Spelling, s.FullWidth ∧ text.toList = s.text

namespace Rfc3339

/-- A full-width spelling decides for its text. -/
theorem Spelling.isRfc3339_iff {s : Spelling} {text : String} (htext : text.toList = s.text)
    (hapart : s.Apart) : IsRfc3339 text ↔ s.FullWidth := by
  constructor
  · rintro ⟨s', hs', htext'⟩
    obtain rfl := Spelling.text_inj hs'.apart hapart (htext'.symm.trans htext)
    exact hs'
  · intro h
    exact ⟨s, h, htext⟩

/-- A number that exceeds all others has an exponent. -/
theorem ClockSpelling.Reads.exponent_ne_zero {s : ClockSpelling} {d : DateTime} {f : Text.Decimal}
    (h : s.Reads d f) (hnanos : nanosOf? f = none) : f.exponent ≠ 0 := by
  obtain ⟨digits, scale, exponent⟩ := f
  rintro rfl
  obtain ⟨hscale, hdigits⟩ := h.fraction.digits_lt
  rw [nanosOf?_of_digits (hscale.trans h.length_le) hdigits] at hnanos
  cases hnanos

end Rfc3339

namespace Timestamp

open Rfc3339

variable {s : Spelling}

/-- The instant of a full-width text, with whole seconds. -/
theorem namesInstant_dateTime_iff (hd : s.clock.time.dateTime.Valid) (i : Int) :
    s.dateTime.NamesInstant i
      ↔ i = (s.clock.time.dateTime.localSeconds - s.zone.seconds) * 1000000 := by
  have hexists : s.dateTime.date.Exists := (Date.valid_iff_exists.mp hd.date_valid).1
  have hlocal : s.dateTime.localMicros = s.clock.time.dateTime.localSeconds * 1000000 :=
    Int.add_zero _
  rw [DateTime.namesInstant_iff hexists rfl, hlocal, Int.sub_mul]
  rfl

/-- What comes of a full-width text. -/
theorem ofRfc3339_text (hs : s.FullWidth) (hd : s.clock.time.dateTime.Valid) :
    ofRfc3339 (String.ofList s.text) =
      if minSeconds ≤ s.clock.time.dateTime.localSeconds - s.zone.seconds
          ∧ s.clock.time.dateTime.localSeconds - s.zone.seconds ≤ maxSeconds then
        .ok { seconds := s.clock.time.dateTime.localSeconds - s.zone.seconds
              nanos := s.clock.nanos }
      else .error (.invalid [.notRfc3339 (String.ofList s.text)]) := by
  let t : Timestamp :=
    { seconds := s.clock.time.dateTime.localSeconds - s.zone.seconds, nanos := s.clock.nanos }
  have hvalid : t.Valid ↔ minSeconds ≤ t.seconds ∧ t.seconds ≤ maxSeconds :=
    ⟨fun h => ⟨h.minSeconds_le, h.le_maxSeconds⟩, fun h => ⟨h.1, h.2, Int.natCast_nonneg _,
      Int.ofNat_lt.mpr hs.clock.nanos_lt⟩⟩
  have hseconds : zoneSeconds? s.zone.text = some s.zone.seconds :=
    (zoneSeconds?_eq_some_iff hs.apart.follows).mpr ⟨_, rfl, hs.zone.apart, hs.zone.reads⟩
  have hassemble : assemble? s.clock.time.dateTime s.clock.nanos s.zone.text
      = if t.Valid then some t else none := by
    rw [assemble?, hseconds]
    rfl
  rw [ofRfc3339_of_opens (opens_of_apart String.toList_ofList hs.apart (hs.clock.reads hd)),
    hs.clock.nanosOf?_digits, Option.elim_some, hassemble]
  simp only [hvalid]
  split <;> rfl

/-- **What the standard allows is read as what it says.** A date-time of the standard whose date and
time of day exist names one instant. If that lies in years 1 to 9999, it is read as the seconds of
the instant and as the nanoseconds that its fraction writes, zeros added up to nine digits.
Otherwise it is refused. -/
theorem ofRfc3339_of_fullWidth (hs : s.FullWidth) (hd : s.clock.time.dateTime.Valid) :
    ∃ seconds : Int, (∀ i, s.dateTime.NamesInstant i ↔ i = seconds * 1000000)
      ∧ ofRfc3339 (String.ofList s.text) =
          if minSeconds ≤ seconds ∧ seconds ≤ maxSeconds then
            .ok { seconds, nanos := s.clock.nanos }
          else .error (.invalid [.notRfc3339 (String.ofList s.text)]) :=
  ⟨_, namesInstant_dateTime_iff hd, ofRfc3339_text hs hd⟩

/-- Half a second past half past two, by a clock that is two hours ahead. -/
theorem ofRfc3339_of_fullWidth_ahead :
    let s : Spelling :=
      { clock :=
          { time :=
              { year := ['2', '0', '2', '4'], month := ['0', '5'], day := ['0', '1']
                hour := ['1', '4'], minute := ['3', '0'], second := ['1', '5'] }
            fraction := some ['5'] }
        zone := .offset true ['0', '2'] ['0', '0'] }
    s.FullWidth ∧ s.clock.time.dateTime.Valid
      ∧ String.ofList s.text = "2024-05-01T14:30:15.5+02:00"
      ∧ ofRfc3339 (String.ofList s.text) = .ok { seconds := 1714566615, nanos := 500000000 } := by
  intro s
  have hs : s.FullWidth := by
    refine ⟨⟨⟨by decide, by decide, by decide, by decide, by decide, by decide⟩, ?_⟩, ?_⟩
    · rintro cs ⟨⟩
      exact ⟨1, by decide, by decide, by decide⟩
    · exact ⟨by decide, by decide, by decide, by decide⟩
  have hd : s.clock.time.dateTime.Valid := DateTime.isValid_iff.mp (by decide)
  obtain ⟨seconds, hinstant, hread⟩ := ofRfc3339_of_fullWidth hs hd
  have hnamed : s.dateTime.NamesInstant 1714566615000000 :=
    (namesInstant_dateTime_iff hd _).mpr (by decide)
  obtain rfl : seconds = 1714566615 := by
    have := (hinstant _).mp hnamed
    omega
  exact ⟨hs, hd, by decide, hread.trans (by decide)⟩

/-- **How strict reading is.** A text is read exactly if it has a spelling whose parts name a valid
timestamp. It has no other, and so it is a date-time of the standard exactly if that spelling is in
full width. Every other text is refused as it stands, save that a fraction with an exponent may
exceed all numbers, which is a misuse. -/
theorem ofRfc3339_strictness (text : String) :
    (∀ t, ofRfc3339 text = .ok t ↔ ∃ s : Spelling, text.toList = s.text ∧ s.Apart ∧ s.Names t)
      ∧ (∀ s : Spelling, text.toList = s.text → s.Apart → (IsRfc3339 text ↔ s.FullWidth))
      ∧ ((∀ t, ofRfc3339 text ≠ .ok t) →
          ofRfc3339 text = .error (.invalid [.notRfc3339 text])
            ∨ ofRfc3339 text = .error (.misuse .infiniteFraction)
              ∧ ∃ clock zone d f, Opens text.toList clock zone d f ∧ nanosOf? f = none
                  ∧ f.exponent ≠ 0) := by
  refine ⟨fun t => ofRfc3339_eq_ok_iff, fun s htext hapart => s.isRfc3339_iff htext hapart, ?_⟩
  intro hnone
  rcases ofRfc3339_cases text with ⟨t, ht, -⟩ | hrefused | ⟨hmisuse, clock, zone, d, f, hopens, hf⟩
  · exact absurd ht (hnone t)
  · exact .inl hrefused
  · exact .inr ⟨hmisuse, clock, zone, d, f, hopens, hf, hopens.reads.exponent_ne_zero hf⟩

/-- **Reading is not strict.** Fields of one digit are read, and a fraction with a large exponent is
not refused. -/
theorem not_strict_ofRfc3339 :
    ofRfc3339 "2024-5-1T1:2:3Z" = .ok { seconds := 1714525323 } ∧ ¬ IsRfc3339 "2024-5-1T1:2:3Z"
      ∧ ofRfc3339 "2024-05-01T12:30:15.9e999Z" = .error (.misuse .infiniteFraction) := by
  refine ⟨by decide +kernel, ?_, by decide +kernel⟩
  let s : Spelling :=
    { clock :=
        { time :=
            { year := ['2', '0', '2', '4'], month := ['5'], day := ['1'], hour := ['1']
              minute := ['2'], second := ['3'] }
          fraction := none }
      zone := .utc }
  have hapart : s.Apart := by
    refine ⟨⟨⟨?_, ?_, ?_, ?_, ?_, ?_⟩, ?_⟩, trivial, .utc ?_⟩ <;> decide
  intro h
  have hmonth := ((s.isRfc3339_iff (by decide) hapart).mp h).clock.time.month.length
  cases hmonth

end Timestamp

end CloudEvents
