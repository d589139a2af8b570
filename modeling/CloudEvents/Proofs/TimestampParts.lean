import CloudEvents.Proofs.Numerals
import CloudEvents.Time.Rfc3339
import Mathlib.Data.List.Forall2
import Mathlib.Data.List.TakeDrop
import Mathlib.Data.List.TakeWhile

/-!
# Parts of timestamp texts

A reader of timestamp texts cuts a text at its separators and hands each part to a reader of its
own. Each of these accepts more than one spelling of a value. Here the spellings are written down,
part by part, as what a part looks like, and every reader is shown to accept exactly those.

Two conditions make up a part of several fields. What its fields read as is `Reads`. That the fields
are where the reader looks for them is `Apart`: a separator ends a field where it occurs first. The
zone has a rule of its own, because a minus sign also separates the date; it is `ZoneFollows`.

## Main definitions

* `Rfc3339.ShortNumber`, `Rfc3339.WideNumber` — the fields of a date-time
* `Rfc3339.TimeSpelling`, `Rfc3339.ClockSpelling` — a date-time, and one with a fraction
* `Rfc3339.Zone`, `Rfc3339.ZoneFollows` — a zone, and where it begins

## Main results

* `Rfc3339.localParts?_eq_some_iff` — what is read before the zone
* `Rfc3339.splitZone?_eq_some_iff`, `Rfc3339.zoneSeconds?_eq_some_iff` — what is read as the zone
-/

namespace CloudEvents

namespace Rfc3339

/-! ### Fields -/

theorem asciiDigit?_eq_some_iff {low high d : Nat} {c : Char} :
    asciiDigit? low high c = some d
      ↔ c.isDigit = true ∧ Text.digitValue? c = some d ∧ low ≤ d ∧ d ≤ high := by
  rw [asciiDigit?, Option.ite_none_right_eq_some, Bool.and_eq_true, Bool.and_eq_true,
    decide_eq_true_eq, decide_eq_true_eq, Option.some.injEq]
  constructor
  · rintro ⟨⟨⟨hc, hlow⟩, hhigh⟩, rfl⟩
    exact ⟨hc, Text.digitValue?_of_isDigit hc, hlow, hhigh⟩
  · rintro ⟨hc, hvalue, hlow, hhigh⟩
    cases (Text.digitValue?_of_isDigit hc).symm.trans hvalue
    exact ⟨⟨⟨hc, hlow⟩, hhigh⟩, rfl⟩

/-- One or two characters that write a number up to 99: the tens, if any, as an ASCII digit, and the
rest as one too or, where that is wide, as a digit of any script. -/
def ShortNumber (wide : Prop) (cs : List Char) (n : Nat) : Prop :=
  ∃ c, (cs = [c] ∧ n < 10 ∨ cs = [(n / 10).digitChar, c])
    ∧ Text.digitValue? c = some (n % 10) ∧ (c.isDigit = true ∨ wide)

namespace ShortNumber

variable {wide : Prop} {cs : List Char} {c : Char} {n : Nat}

theorem one (hvalue : Text.digitValue? c = some n) (hdigit : c.isDigit = true ∨ wide) :
    ShortNumber wide [c] n := by
  have hn := Text.digitValue?_lt hvalue
  exact ⟨c, .inl ⟨rfl, hn⟩, by rwa [Nat.mod_eq_of_lt hn], hdigit⟩

theorem two (tens : Nat) (hvalue : Text.digitValue? c = some n)
    (hdigit : c.isDigit = true ∨ wide) :
    ShortNumber wide [tens.digitChar, c] (10 * tens + n) := by
  have hn := Text.digitValue?_lt hvalue
  refine ⟨c, .inr ?_, ?_, hdigit⟩
  · rw [show (10 * tens + n) / 10 = tens by omega]
  · rwa [show (10 * tens + n) % 10 = n by omega]

theorem zero (hvalue : Text.digitValue? c = some n) (hdigit : c.isDigit = true ∨ wide) :
    ShortNumber wide ['0', c] n :=
  Nat.zero_add n ▸ two 0 hvalue hdigit

/-- There are no other short numbers. -/
theorem one_or_two (h : ShortNumber wide cs n) :
    (∃ c, cs = [c] ∧ n ≤ 9 ∧ Text.digitValue? c = some n ∧ (c.isDigit = true ∨ wide))
      ∨ ∃ tens c d, cs = [tens.digitChar, c] ∧ n = 10 * tens + d ∧ d ≤ 9
          ∧ Text.digitValue? c = some d ∧ (c.isDigit = true ∨ wide) := by
  obtain ⟨c, ⟨rfl, hn⟩ | rfl, hvalue, hdigit⟩ := h
  · exact .inl ⟨c, rfl, Nat.le_of_lt_succ hn, by rwa [Nat.mod_eq_of_lt hn] at hvalue, hdigit⟩
  · exact .inr ⟨n / 10, c, n % 10, rfl, (Nat.div_add_mod n 10).symm,
      Nat.le_of_lt_succ (Text.digitValue?_lt hvalue), hvalue, hdigit⟩

theorem of_asciiDigits (h : Text.AsciiDigits 2 cs) :
    ShortNumber wide cs (Text.decimalValue cs) := by
  obtain ⟨a, b, rfl, ha, hb, hvalue⟩ := h.exists_pair
  have hnumber : ShortNumber wide [(a.toNat - 48).digitChar, b] _ :=
    two (a.toNat - 48) (Text.digitValue?_of_isDigit hb) (.inl hb)
  rwa [Text.digitChar_toNat_sub ha, ← hvalue] at hnumber

end ShortNumber

/-- The month has no digits of other scripts. -/
theorem month?_eq_some_iff {cs : List Char} {n : Nat} :
    month? cs = some n ↔ 1 ≤ n ∧ n ≤ 12 ∧ ShortNumber False cs n := by
  constructor
  · intro h
    unfold month? at h
    split at h
    · split at h
      · obtain ⟨d, hd, rfl⟩ := Option.map_eq_some_iff.mp h
        obtain ⟨hdigit, hvalue, hlow, hhigh⟩ := asciiDigit?_eq_some_iff.mp hd
        exact ⟨by omega, by omega, .two 1 hvalue (.inl hdigit)⟩
      · obtain ⟨hdigit, hvalue, hlow, hhigh⟩ := asciiDigit?_eq_some_iff.mp h
        exact ⟨hlow, by omega, .zero hvalue (.inl hdigit)⟩
      · cases h
    · obtain ⟨hdigit, hvalue, hlow, hhigh⟩ := asciiDigit?_eq_some_iff.mp h
      exact ⟨hlow, by omega, .one hvalue (.inl hdigit)⟩
    · cases h
  · rintro ⟨hlow, hhigh, hcs⟩
    obtain ⟨c, rfl, hn, hvalue, hdigit⟩ | ⟨tens, c, d, rfl, rfl, hd, hvalue, hdigit⟩ :=
      hcs.one_or_two
    · exact asciiDigit?_eq_some_iff.mpr ⟨hdigit.resolve_right id, hvalue, hlow, hn⟩
    · have hdigit := hdigit.resolve_right id
      obtain rfl | rfl : tens = 0 ∨ tens = 1 := by omega
      · rw [Nat.mul_zero, Nat.zero_add] at hlow ⊢
        exact asciiDigit?_eq_some_iff.mpr ⟨hdigit, hvalue, hlow, hd⟩
      · exact Option.map_eq_some_iff.mpr
          ⟨d, asciiDigit?_eq_some_iff.mpr ⟨hdigit, hvalue, Nat.zero_le d, by omega⟩, rfl⟩

/-- The day may follow a blank, and has digits of other scripts in its tens and twenties. -/
theorem day?_eq_some_iff {cs : List Char} {n : Nat} :
    day? cs = some n ↔ 1 ≤ n ∧ n ≤ 31
      ∧ (ShortNumber (10 ≤ n ∧ n < 30) cs n ∨ n < 10 ∧ cs = [' ', n.digitChar]) := by
  constructor
  · intro h
    unfold day? at h
    split at h
    · split at h
      · obtain ⟨d, hd, rfl⟩ := Option.map_eq_some_iff.mp h
        obtain ⟨hdigit, hvalue, hlow, hhigh⟩ := asciiDigit?_eq_some_iff.mp hd
        exact ⟨by omega, by omega, .inl (.two 3 hvalue (.inl hdigit))⟩
      · obtain ⟨d, hvalue, rfl⟩ := Option.map_eq_some_iff.mp h
        have hd := Text.digitValue?_lt hvalue
        exact ⟨by omega, by omega, .inl (.two 2 hvalue (.inr (by omega)))⟩
      · obtain ⟨d, hvalue, rfl⟩ := Option.map_eq_some_iff.mp h
        have hd := Text.digitValue?_lt hvalue
        exact ⟨by omega, by omega, .inl (.two 1 hvalue (.inr (by omega)))⟩
      · obtain ⟨hdigit, hvalue, hlow, hhigh⟩ := asciiDigit?_eq_some_iff.mp h
        exact ⟨hlow, by omega, .inl (.zero hvalue (.inl hdigit))⟩
      · obtain ⟨hdigit, hvalue, hlow, hhigh⟩ := asciiDigit?_eq_some_iff.mp h
        rw [Text.digitValue?_of_isDigit hdigit] at hvalue
        refine ⟨hlow, by omega, .inr ⟨by omega, ?_⟩⟩
        rw [← Option.some.inj hvalue, Text.digitChar_toNat_sub hdigit]
      · cases h
    · obtain ⟨hdigit, hvalue, hlow, hhigh⟩ := asciiDigit?_eq_some_iff.mp h
      exact ⟨hlow, by omega, .inl (.one hvalue (.inl hdigit))⟩
    · cases h
  · rintro ⟨hlow, hhigh, hcs | ⟨hn, rfl⟩⟩
    · obtain ⟨c, rfl, hn, hvalue, hdigit⟩ | ⟨tens, c, d, rfl, rfl, hd, hvalue, hdigit⟩ :=
        hcs.one_or_two
      · exact asciiDigit?_eq_some_iff.mpr ⟨hdigit.resolve_right (by omega), hvalue, hlow, hn⟩
      · obtain rfl | rfl | rfl | rfl : tens = 0 ∨ tens = 1 ∨ tens = 2 ∨ tens = 3 := by omega
        · have hdigit := hdigit.resolve_right (by omega)
          rw [Nat.mul_zero, Nat.zero_add] at hlow ⊢
          exact asciiDigit?_eq_some_iff.mpr ⟨hdigit, hvalue, hlow, hd⟩
        · exact Option.map_eq_some_iff.mpr ⟨d, hvalue, rfl⟩
        · exact Option.map_eq_some_iff.mpr ⟨d, hvalue, rfl⟩
        · have hdigit := hdigit.resolve_right (by omega)
          exact Option.map_eq_some_iff.mpr
            ⟨d, asciiDigit?_eq_some_iff.mpr ⟨hdigit, hvalue, Nat.zero_le d, by omega⟩, rfl⟩
    · exact asciiDigit?_eq_some_iff.mpr ⟨Text.isDigit_digitChar hn, Text.digitValue?_digitChar hn,
        hlow, Nat.le_of_lt_succ hn⟩

/-- The hour has digits of other scripts up to 19. -/
theorem hour?_eq_some_iff {cs : List Char} {n : Nat} :
    hour? cs = some n ↔ n < 24 ∧ ShortNumber (n < 20) cs n := by
  constructor
  · intro h
    unfold hour? at h
    split at h
    · split at h
      · obtain ⟨d, hd, rfl⟩ := Option.map_eq_some_iff.mp h
        obtain ⟨hdigit, hvalue, hlow, hhigh⟩ := asciiDigit?_eq_some_iff.mp hd
        exact ⟨by omega, .two 2 hvalue (.inl hdigit)⟩
      · obtain ⟨d, hvalue, rfl⟩ := Option.map_eq_some_iff.mp h
        have hd := Text.digitValue?_lt hvalue
        exact ⟨by omega, .two 1 hvalue (.inr (by omega))⟩
      · have hn := Text.digitValue?_lt h
        exact ⟨by omega, .zero h (.inr (by omega))⟩
      · cases h
    · have hn := Text.digitValue?_lt h
      exact ⟨by omega, .one h (.inr (by omega))⟩
    · cases h
  · rintro ⟨hhigh, hcs⟩
    obtain ⟨c, rfl, hn, hvalue, hdigit⟩ | ⟨tens, c, d, rfl, rfl, hd, hvalue, hdigit⟩ :=
      hcs.one_or_two
    · exact hvalue
    · obtain rfl | rfl | rfl : tens = 0 ∨ tens = 1 ∨ tens = 2 := by omega
      · rw [Nat.mul_zero, Nat.zero_add]
        exact hvalue
      · exact Option.map_eq_some_iff.mpr ⟨d, hvalue, rfl⟩
      · have hdigit := hdigit.resolve_right (by omega)
        exact Option.map_eq_some_iff.mpr
          ⟨d, asciiDigit?_eq_some_iff.mpr ⟨hdigit, hvalue, Nat.zero_le d, by omega⟩, rfl⟩

/-- Minutes and seconds have digits of other scripts throughout, but not in their tens. -/
theorem sixtieth?_eq_some_iff {cs : List Char} {n : Nat} :
    sixtieth? cs = some n ↔ n < 60 ∧ ShortNumber True cs n := by
  constructor
  · intro h
    unfold sixtieth? at h
    split at h
    · obtain ⟨tens, ht, h⟩ := Option.bind_eq_some_iff.mp h
      obtain ⟨d, hvalue, h⟩ := Option.bind_eq_some_iff.mp h
      obtain rfl := Option.some.inj h
      obtain ⟨hdigit, htens, -, hhigh⟩ := asciiDigit?_eq_some_iff.mp ht
      have hd := Text.digitValue?_lt hvalue
      rw [Text.digitValue?_of_isDigit hdigit] at htens
      rw [← Text.digitChar_toNat_sub hdigit, Option.some.inj htens]
      exact ⟨by omega, .two tens hvalue (.inr trivial)⟩
    · have hn := Text.digitValue?_lt h
      exact ⟨by omega, .one h (.inr trivial)⟩
    · cases h
  · rintro ⟨hhigh, hcs⟩
    obtain ⟨c, rfl, hn, hvalue, hdigit⟩ | ⟨tens, c, d, rfl, rfl, hd, hvalue, hdigit⟩ :=
      hcs.one_or_two
    · exact hvalue
    · have htens : tens < 10 := by omega
      have ht : asciiDigit? 0 5 tens.digitChar = some tens := asciiDigit?_eq_some_iff.mpr
        ⟨Text.isDigit_digitChar htens, Text.digitValue?_digitChar htens, Nat.zero_le tens, by omega⟩
      simp [sixtieth?, ht, hvalue]

/-- Digits of any script, and the number that they write. -/
def WideNumber (cs : List Char) (n : Nat) : Prop :=
  ∃ ds : List Nat, List.Forall₂ (fun c d => Text.digitValue? c = some d) cs ds
    ∧ n = ds.foldl (fun n d => 10 * n + d) 0

theorem WideNumber.of_isDigit {cs : List Char} (h : ∀ c ∈ cs, c.isDigit = true) :
    WideNumber cs (Text.decimalValue cs) := by
  refine ⟨cs.map (·.toNat - 48), ?_, by rw [List.foldl_map]; rfl⟩
  rw [List.forall₂_map_right_iff, List.forall₂_same]
  exact fun c hc => Text.digitValue?_of_isDigit (h c hc)

theorem year?_eq_some_iff {cs : List Char} {n : Nat} :
    year? cs = some n ↔ cs.length = 4 ∧ WideNumber cs n := by
  constructor
  · intro h
    unfold year? at h
    split at h
    · obtain ⟨a, ha, h⟩ := Option.bind_eq_some_iff.mp h
      obtain ⟨b, hb, h⟩ := Option.bind_eq_some_iff.mp h
      obtain ⟨c, hc, h⟩ := Option.bind_eq_some_iff.mp h
      obtain ⟨d, hd, h⟩ := Option.bind_eq_some_iff.mp h
      refine ⟨rfl, [a, b, c, d], .cons ha (.cons hb (.cons hc (.cons hd .nil))), ?_⟩
      have hn := Option.some.inj h
      simp only [List.foldl_cons, List.foldl_nil]
      omega
    · cases h
  · rintro ⟨hlength, ds, hds, rfl⟩
    match hds, hlength with
    | .cons ha (.cons hb (.cons hc (.cons hd .nil))), _ =>
      simp only [year?, ha, hb, hc, hd, List.foldl_cons, List.foldl_nil, Option.bind_eq_bind,
        Option.bind_some, Option.pure_def, Option.some.injEq]
      omega

/-! ### Separators -/

theorem span_append {separator : Char} {front : List Char} (h : separator ∉ front)
    (back : List Char) :
    (front ++ separator :: back).span (· ≠ separator) = (front, separator :: back) := by
  have hfront : ∀ c ∈ front, decide (c ≠ separator) = true := by
    intro c hc
    exact decide_eq_true fun heq => h (heq ▸ hc)
  rw [List.span_eq_takeWhile_dropWhile, List.takeWhile_append_of_pos hfront,
    List.dropWhile_append_of_pos hfront, List.takeWhile_cons_of_neg (by simp),
    List.dropWhile_cons_of_neg (by simp), List.append_nil]

theorem cut?_append {separator : Char} {front : List Char} (h : separator ∉ front)
    (back : List Char) : cut? separator (front ++ separator :: back) = some (front, back) := by
  rw [cut?, span_append h]

theorem cut?_eq_none_iff {separator : Char} {cs : List Char} :
    cut? separator cs = none ↔ separator ∉ cs := by
  constructor
  · intro h hmem
    obtain ⟨front, back, rfl, hfront⟩ := List.eq_append_cons_of_mem hmem
    rw [cut?_append hfront] at h
    cases h
  · intro h
    have hall : ∀ c ∈ cs, decide (c ≠ separator) = true := by
      intro c hc
      exact decide_eq_true fun heq => h (heq ▸ hc)
    have hspan : cs.span (· ≠ separator) = (cs, []) := by
      rw [List.span_eq_takeWhile_dropWhile, List.takeWhile_eq_self_iff.mpr hall,
        List.dropWhile_eq_nil_iff.mpr hall]
    rw [cut?, hspan]

theorem cut?_eq_some_iff {separator : Char} {cs front back : List Char} :
    cut? separator cs = some (front, back)
      ↔ cs = front ++ separator :: back ∧ separator ∉ front := by
  constructor
  · intro h
    by_cases hmem : separator ∈ cs
    · obtain ⟨front', back', rfl, hfront⟩ := List.eq_append_cons_of_mem hmem
      rw [cut?_append hfront] at h
      cases h
      exact ⟨rfl, hfront⟩
    · rw [cut?_eq_none_iff.mpr hmem] at h
      cases h
  · rintro ⟨rfl, hfront⟩
    exact cut?_append hfront back

theorem not_mem_append_cons {c separator : Char} {front back : List Char} (hfront : c ∉ front)
    (hseparator : c ≠ separator) (hback : c ∉ back) : c ∉ front ++ separator :: back := by
  simp [hfront, hseparator, hback]

/-- A text has one first separator. -/
theorem append_separator_inj {separator : Char} {front front' back back' : List Char}
    (h : separator ∉ front) (h' : separator ∉ front')
    (heq : front ++ separator :: back = front' ++ separator :: back') :
    front = front' ∧ back = back' := by
  have hcut := cut?_append h back
  rw [heq, cut?_append h'] at hcut
  cases hcut
  exact ⟨rfl, rfl⟩

/-! ### Date and time -/

/-- The fields of a date and a time of day. -/
structure TimeSpelling where
  (year month day hour minute second : List Char)

namespace TimeSpelling

def text (s : TimeSpelling) : List Char :=
  s.year ++ '-' :: (s.month ++ '-' :: (s.day ++ 'T' :: (s.hour ++ ':' :: (s.minute ++ ':' ::
    s.second))))

/-- Each field ends at the first of its separator, and there is no small `t` anywhere. -/
structure Apart (s : TimeSpelling) : Prop where
  year : '-' ∉ s.year
  month : '-' ∉ s.month
  day : 'T' ∉ s.day
  hour : ':' ∉ s.hour
  minute : ':' ∉ s.minute
  text : 't' ∉ s.text

/-- The fields write a date-time, with fraction and offset left at zero. -/
structure Reads (s : TimeSpelling) (d : DateTime) : Prop where
  year_length : s.year.length = 4
  year : WideNumber s.year d.date.year
  month : ShortNumber False s.month d.date.month
  day : ShortNumber (10 ≤ d.date.day ∧ d.date.day < 30) s.day d.date.day
    ∨ d.date.day < 10 ∧ s.day = [' ', d.date.day.digitChar]
  date_valid : d.date.Valid
  hour_lt : d.hour < 24
  hour : ShortNumber (d.hour < 20) s.hour d.hour
  minute_lt : d.minute < 60
  minute : ShortNumber True s.minute d.minute
  second_lt : d.second < 60
  second : ShortNumber True s.second d.second
  microsecond : d.microsecond = 0
  offset : d.offset = .known 0

theorem text_inj {s s' : TimeSpelling} (h : s.Apart) (h' : s'.Apart) (heq : s.text = s'.text) :
    s = s' := by
  obtain ⟨hyear, heq⟩ := append_separator_inj h.year h'.year heq
  obtain ⟨hmonth, heq⟩ := append_separator_inj h.month h'.month heq
  obtain ⟨hday, heq⟩ := append_separator_inj h.day h'.day heq
  obtain ⟨hhour, heq⟩ := append_separator_inj h.hour h'.hour heq
  obtain ⟨hminute, hsecond⟩ := append_separator_inj h.minute h'.minute heq
  cases s
  cases s'
  simp_all

end TimeSpelling

/-- No month has more days. -/
theorem day_le_of_valid {d : Date} (h : d.Valid) : d.day ≤ 31 := by
  have hlengths : ∀ leap, ∀ k < 12, (monthLengths leap).getD k 0 ≤ 31 := by decide
  have hpos := h.month_pos
  have hle := h.month_le
  exact Nat.le_trans h.day_le (hlengths _ _ (by omega))

theorem dateTime?_eq_some_iff {cs : List Char} {d : DateTime} :
    dateTime? cs = some d ↔ ∃ s : TimeSpelling, cs = s.text ∧ s.Apart ∧ s.Reads d := by
  constructor
  · intro h
    unfold dateTime? at h
    split at h
    · cases h
    · rename_i ht
      simp only [Option.bind_eq_bind, Option.pure_def, Option.bind_eq_some_iff, Prod.exists,
        cut?_eq_some_iff, month?_eq_some_iff, year?_eq_some_iff, day?_eq_some_iff] at h
      obtain ⟨year, _, ⟨rfl, hyear⟩, month, _, ⟨rfl, hmonth⟩, day, _, ⟨rfl, hday⟩,
        hour, _, ⟨rfl, hhour⟩, minute, second, ⟨rfl, hminute⟩, y, ⟨hlength, hy⟩, m, ⟨-, -, hm⟩,
        n, ⟨-, -, hn⟩, h⟩ := h
      split at h
      · cases h
      · rename_i hvalid
        simp only [Option.bind_eq_some_iff, hour?_eq_some_iff, sixtieth?_eq_some_iff,
          Option.some.injEq] at h
        obtain ⟨_, ⟨hhour_lt, hhour'⟩, _, ⟨hminute_lt, hminute'⟩, _, ⟨hsecond_lt, hsecond'⟩, rfl⟩ :=
          h
        exact ⟨⟨year, month, day, hour, minute, second⟩, rfl,
          ⟨hyear, hmonth, hday, hhour, hminute, ht⟩,
          ⟨hlength, hy, hm, hn, Decidable.not_not.mp hvalid, hhour_lt, hhour', hminute_lt, hminute',
            hsecond_lt, hsecond', rfl, rfl⟩⟩
  · rintro ⟨s, rfl, hapart, hreads⟩
    have hvalid := hreads.date_valid
    rw [dateTime?, if_neg hapart.text]
    simp only [TimeSpelling.text, Option.bind_eq_bind, Option.pure_def, Option.bind_some,
      cut?_append hapart.year, cut?_append hapart.month, cut?_append hapart.day,
      cut?_append hapart.hour, cut?_append hapart.minute,
      year?_eq_some_iff.mpr ⟨hreads.year_length, hreads.year⟩,
      month?_eq_some_iff.mpr ⟨hvalid.month_pos, hvalid.month_le, hreads.month⟩,
      day?_eq_some_iff.mpr ⟨hvalid.day_pos, day_le_of_valid hvalid, hreads.day⟩,
      hour?_eq_some_iff.mpr ⟨hreads.hour_lt, hreads.hour⟩,
      sixtieth?_eq_some_iff.mpr ⟨hreads.minute_lt, hreads.minute⟩,
      sixtieth?_eq_some_iff.mpr ⟨hreads.second_lt, hreads.second⟩,
      not_true, if_false, hvalid]
    obtain ⟨date, hour, minute, second, microsecond, offset⟩ := d
    obtain ⟨rfl, rfl⟩ : microsecond = 0 ∧ offset = .known 0 := ⟨hreads.microsecond, hreads.offset⟩
    rfl

/-! ### Fraction -/

/-- A date and a time of day, with what stands after a point if there is one. -/
structure ClockSpelling where
  time : TimeSpelling
  fraction : Option (List Char)

namespace ClockSpelling

/-- What stands after the point. -/
def digits (s : ClockSpelling) : List Char := s.fraction.getD []

def text (s : ClockSpelling) : List Char :=
  s.time.text ++ match s.fraction with
    | none => []
    | some cs => '.' :: cs

/-- The fraction follows the first point. -/
structure Apart (s : ClockSpelling) : Prop where
  time : s.time.Apart
  point : '.' ∉ s.time.text

/-- The fraction is a lenient one of at most nine characters. -/
structure Reads (s : ClockSpelling) (d : DateTime) (f : Text.Decimal) : Prop where
  time : s.time.Reads d
  length_le : s.digits.length ≤ 9
  fraction : Text.LooseFraction s.digits f

theorem cut?_text {s : ClockSpelling} (h : s.Apart) :
    cut? '.' s.text = s.fraction.map fun cs => (s.time.text, cs) := by
  obtain ⟨time, _ | cs⟩ := s
  · rw [text, List.append_nil]
    exact cut?_eq_none_iff.mpr h.point
  · exact cut?_append h.point cs

theorem text_inj {s s' : ClockSpelling} (h : s.Apart) (h' : s'.Apart) (heq : s.text = s'.text) :
    s = s' := by
  have hcut := (cut?_text h).symm.trans (heq ▸ cut?_text h')
  obtain ⟨time, _ | cs⟩ := s
  · obtain ⟨time', _ | cs'⟩ := s'
    · have htime : time.text = time'.text := by simpa [text] using heq
      obtain rfl : time = time' := TimeSpelling.text_inj h.time h'.time htime
      rfl
    · cases hcut
  · obtain ⟨time', _ | cs'⟩ := s'
    · cases hcut
    · obtain ⟨htime, rfl⟩ := Prod.mk.inj (Option.some.inj hcut)
      obtain rfl : time = time' := TimeSpelling.text_inj h.time h'.time htime
      rfl

end ClockSpelling

/-- **What is read before the zone.** -/
theorem localParts?_eq_some_iff {cs : List Char} {d : DateTime} {f : Text.Decimal} :
    localParts? cs = some (d, f) ↔ ∃ s : ClockSpelling, cs = s.text ∧ s.Apart ∧ s.Reads d f := by
  have hparts {time fraction : List Char} (hcut : (cut? '.' cs).getD (cs, []) = (time, fraction)) :
      localParts? cs = some (d, f)
        ↔ (∃ s : TimeSpelling, time = s.text ∧ s.Apart ∧ s.Reads d) ∧ fraction.length ≤ 9
          ∧ Text.LooseFraction fraction f := by
    rw [← dateTime?_eq_some_iff, ← Text.readFraction?_eq_some_iff, localParts?, hcut]
    by_cases hlength : fraction.length ≤ 9
    · simp [hlength, Nat.not_lt.mpr hlength, Option.bind_eq_some_iff]
    · simp [hlength, Nat.not_le.mp hlength]
  constructor
  · intro h
    cases hcut : cut? '.' cs with
    | none =>
      obtain ⟨⟨s, rfl, hapart, hreads⟩, hlength, hfraction⟩ := (hparts (by rw [hcut])).mp h
      exact ⟨⟨s, none⟩, (List.append_nil _).symm, ⟨hapart, cut?_eq_none_iff.mp hcut⟩,
        ⟨hreads, hlength, hfraction⟩⟩
    | some parts =>
      obtain ⟨time, fraction⟩ := parts
      obtain ⟨⟨s, rfl, hapart, hreads⟩, hlength, hfraction⟩ := (hparts (by rw [hcut])).mp h
      obtain ⟨rfl, hpoint⟩ := cut?_eq_some_iff.mp hcut
      exact ⟨⟨s, some fraction⟩, rfl, ⟨hapart, hpoint⟩, ⟨hreads, hlength, hfraction⟩⟩
  · rintro ⟨s, rfl, hapart, hreads⟩
    refine (hparts ?_).mpr ⟨⟨s.time, rfl, hapart.time, hreads.time⟩, hreads.length_le,
      hreads.fraction⟩
    rw [ClockSpelling.cut?_text hapart]
    obtain ⟨time, _ | cs⟩ := s
    · rw [ClockSpelling.text, List.append_nil]
      rfl
    · rfl

/-! ### Zone -/

/-- The zone begins at the first `Z`, else at the first plus sign, else at the last minus sign. -/
inductive ZoneFollows (before : List Char) : List Char → Prop
  | utc {rest : List Char} (h : 'Z' ∉ before) : ZoneFollows before ('Z' :: rest)
  | ahead {rest : List Char} (hutc : 'Z' ∉ before ++ '+' :: rest) (h : '+' ∉ before) :
      ZoneFollows before ('+' :: rest)
  | behind {rest : List Char} (hutc : 'Z' ∉ before ++ '-' :: rest)
      (hahead : '+' ∉ before ++ '-' :: rest) (h : '-' ∉ rest) : ZoneFollows before ('-' :: rest)

theorem splitZone?_append {before zone : List Char} (h : ZoneFollows before zone) :
    splitZone? (before ++ zone) = some (before, zone) := by
  cases h with
  | utc h => rw [splitZone?, if_pos List.mem_append_cons_self, span_append h]
  | ahead hutc h =>
    rw [splitZone?, if_neg hutc, if_pos List.mem_append_cons_self, span_append h]
  | @behind rest hutc hahead h =>
    have hrest : '-' ∉ rest.reverse := mt List.mem_reverse.mp h
    have hreverse : (before ++ '-' :: rest).reverse = rest.reverse ++ '-' :: before.reverse := by
      simp
    rw [splitZone?, if_neg hutc, if_neg hahead, if_pos List.mem_append_cons_self, hreverse]
    simp only [span_append hrest, List.drop_one, List.tail_cons, List.reverse_reverse]

/-- **Where a zone begins.** -/
theorem splitZone?_eq_some_iff {cs before zone : List Char} :
    splitZone? cs = some (before, zone) ↔ cs = before ++ zone ∧ ZoneFollows before zone := by
  constructor
  · intro h
    -- there is at most one split, so it is enough that the text has one that follows the rule
    suffices hfollows : ∃ before' zone', cs = before' ++ zone' ∧ ZoneFollows before' zone' by
      obtain ⟨before', zone', rfl, hzone⟩ := hfollows
      rw [splitZone?_append hzone] at h
      cases h
      exact ⟨rfl, hzone⟩
    by_cases hutc : 'Z' ∈ cs
    · obtain ⟨front, back, rfl, hfront⟩ := List.eq_append_cons_of_mem hutc
      exact ⟨front, _, rfl, .utc hfront⟩
    by_cases hahead : '+' ∈ cs
    · obtain ⟨front, back, rfl, hfront⟩ := List.eq_append_cons_of_mem hahead
      exact ⟨front, _, rfl, .ahead hutc hfront⟩
    by_cases hbehind : '-' ∈ cs
    · obtain ⟨back, front, heq, hback⟩ :=
        List.eq_append_cons_of_mem (List.mem_reverse.mpr hbehind)
      obtain rfl : cs = front.reverse ++ '-' :: back.reverse := by
        rw [← List.reverse_reverse cs, heq]
        simp
      exact ⟨_, _, rfl, .behind hutc hahead (mt List.mem_reverse.mp hback)⟩
    · rw [splitZone?, if_neg hutc, if_neg hahead, if_neg hbehind] at h
      cases h
  · rintro ⟨rfl, h⟩
    exact splitZone?_append h

/-- UTC itself, or hours and minutes ahead of it or behind. -/
inductive Zone where
  | utc
  | offset (ahead : Bool) (hours minutes : List Char)

namespace Zone

/-- The sign of an offset. -/
def sign (ahead : Bool) : Char := if ahead then '+' else '-'

def text : Zone → List Char
  | utc => ['Z']
  | offset ahead hours minutes => sign ahead :: (hours ++ ':' :: minutes)

/-- The hours end at the first colon. -/
def Apart : Zone → Prop
  | utc => True
  | offset _ hours _ => ':' ∉ hours

/-- The seconds ahead of UTC. Hours and minutes are lenient integers, of any size and with signs of
their own. -/
def Reads : Zone → Int → Prop
  | utc, seconds => seconds = 0
  | offset ahead hours minutes, seconds =>
    ∃ h m, Text.LooseInteger hours h ∧ Text.LooseInteger minutes m
      ∧ seconds = if ahead then (h * 60 + m) * 60 else -((h * 60 + m) * 60)

theorem sign_inj {a b : Bool} (h : sign a = sign b) : a = b := by
  revert a b
  decide

theorem sign_ne_utc (ahead : Bool) : sign ahead ≠ 'Z' := by cases ahead <;> decide

theorem sign_cons_eq_text_iff {ahead : Bool} {rest : List Char} {z : Zone} :
    sign ahead :: rest = z.text
      ↔ ∃ hours minutes, z = offset ahead hours minutes ∧ rest = hours ++ ':' :: minutes := by
  cases z with
  | utc => simp [text, sign_ne_utc]
  | offset ahead' hours minutes =>
    simp only [text, List.cons.injEq, offset.injEq]
    constructor
    · rintro ⟨hsign, rfl⟩
      exact ⟨hours, minutes, ⟨(sign_inj hsign).symm, rfl, rfl⟩, rfl⟩
    · rintro ⟨_, _, ⟨rfl, rfl, rfl⟩, rfl⟩
      exact ⟨rfl, rfl⟩

theorem text_inj {z z' : Zone} (h : z.Apart) (h' : z'.Apart) (heq : z.text = z'.text) : z = z' := by
  cases z with
  | utc =>
    cases z' with
    | utc => rfl
    | offset ahead' => exact absurd (List.cons.inj heq).1.symm (sign_ne_utc ahead')
  | offset ahead hours minutes =>
    obtain ⟨hours', minutes', rfl, hrest⟩ := sign_cons_eq_text_iff.mp heq
    obtain ⟨rfl, rfl⟩ := append_separator_inj h h' hrest
    rfl

/-- What is read after a sign. -/
theorem zoneSeconds?_sign {ahead : Bool} {rest : List Char} {seconds : Int} :
    zoneSeconds? (sign ahead :: rest) = some seconds
      ↔ ∃ hours minutes, rest = hours ++ ':' :: minutes ∧ ':' ∉ hours
          ∧ (offset ahead hours minutes).Reads seconds := by
  have hahead : sign ahead = '+' ↔ ahead = true := by cases ahead <;> decide
  have heq : zoneSeconds? (sign ahead :: rest) = (cut? ':' rest).bind fun parts =>
      (Text.readInteger? parts.1).bind fun h => (Text.readInteger? parts.2).bind fun m =>
        some (if ahead then (h * 60 + m) * 60 else -((h * 60 + m) * 60)) := by
    rw [zoneSeconds?, if_neg (sign_ne_utc ahead)]
    · simp only [hahead]
      rfl
    · intro h
      exact absurd h (sign_ne_utc ahead)
  simp only [heq, Option.bind_eq_some_iff, Prod.exists, cut?_eq_some_iff,
    Text.readInteger?_eq_some_iff, Reads, Option.some.injEq, eq_comm (a := seconds), and_assoc,
    exists_and_left]

end Zone

/-- **What is read as the zone.** -/
theorem zoneSeconds?_eq_some_iff {before zone : List Char} {seconds : Int}
    (h : ZoneFollows before zone) :
    zoneSeconds? zone = some seconds ↔ ∃ z : Zone, zone = z.text ∧ z.Apart ∧ z.Reads seconds := by
  have hsign (ahead : Bool) (rest : List Char) :
      zoneSeconds? (Zone.sign ahead :: rest) = some seconds
        ↔ ∃ z : Zone, Zone.sign ahead :: rest = z.text ∧ z.Apart ∧ z.Reads seconds := by
    simp only [Zone.zoneSeconds?_sign, Zone.sign_cons_eq_text_iff]
    constructor
    · rintro ⟨hours, minutes, hrest, hapart, hreads⟩
      exact ⟨_, ⟨hours, minutes, rfl, hrest⟩, hapart, hreads⟩
    · rintro ⟨_, ⟨hours, minutes, rfl, hrest⟩, hapart, hreads⟩
      exact ⟨hours, minutes, hrest, hapart, hreads⟩
  cases h with
  | @utc rest h =>
    -- nothing may follow the letter
    constructor
    · intro hzone
      cases rest with
      | nil => exact ⟨.utc, rfl, trivial, (Option.some.inj hzone).symm⟩
      | cons c rest => cases hzone
    · rintro ⟨_ | ⟨ahead, hours, minutes⟩, htext, -, hreads⟩
      · obtain ⟨-, rfl⟩ := List.cons.inj htext
        exact congrArg some (Eq.symm hreads)
      · exact absurd (List.cons.inj htext).1.symm (Zone.sign_ne_utc ahead)
  | ahead hutc h => exact hsign true _
  | behind hutc hahead h => exact hsign false _

end Rfc3339

end CloudEvents
