import CloudEvents.Number.Format
import CloudEvents.Text.Numeral
import Mathlib.Data.List.Basic

/-!
# Written and lenient numerals

Numbers in timestamp texts are written in one way and read in many. They are written with a fixed
number of decimal digits, zeros in front. They are read with underscores between digits, with a
sign, with blanks around them and with digits of any script, and a fraction may also have an
exponent.

The lenient forms are stated here as what a text looks like: a row of digits, some of them kept
apart by one underscore (`Grouped`), a sign in front of it or not, and blanks around the whole. A
reader gets there in steps, of which each works on the whole text. That it accepts exactly these
forms is one equivalence for integers and one for fractions.

## Main definitions

* `Text.decimalValue`, `Text.digits` — the number that digits write, and the digits of a number
* `Text.AsciiDigits` — a field of a fixed number of digits
* `Text.Grouped`, `Text.SignedDigits` — digits with underscores, and with a sign
* `Text.LooseInteger`, `Text.LooseFraction` — what is accepted

## Main results

* `Text.toList_padded` — numbers are written as their digits
* `Text.readInteger?_eq_some_iff`, `Text.readFraction?_eq_some_iff` — what the readers accept
-/

namespace CloudEvents.Text

/-! ### Digits -/

/-- The number that decimal digits write. -/
def decimalValue (ds : List Char) : Nat := ds.foldl (fun n c => 10 * n + (c.toNat - 48)) 0

/-- The last digits of a number, as many as `width`. -/
def digits : (width n : Nat) → List Char
  | 0, _ => []
  | width + 1, n => digits width (n / 10) ++ [(n % 10).digitChar]

theorem isDigit_iff {c : Char} : c.isDigit = true ↔ 48 ≤ c.toNat ∧ c.toNat ≤ 57 := by
  simp [Char.isDigit, UInt32.le_iff_toNat_le]

theorem toNat_digitChar {d : Nat} (h : d < 10) : d.digitChar.toNat = 48 + d :=
  Nat.toNat_digitChar_of_lt_ten h

theorem isDigit_digitChar {d : Nat} (h : d < 10) : d.digitChar.isDigit = true := by
  rw [isDigit_iff, toNat_digitChar h]
  omega

/-- A digit is the character of its value. -/
theorem digitChar_toNat_sub {c : Char} (h : c.isDigit = true) :
    (c.toNat - 48).digitChar = c := by
  have hc := isDigit_iff.mp h
  apply Char.toNat_inj.mp
  rw [toNat_digitChar (by omega)]
  omega

theorem decimalValue_concat (ds : List Char) (c : Char) :
    decimalValue (ds ++ [c]) = 10 * decimalValue ds + (c.toNat - 48) := by
  rw [decimalValue, List.foldl_append]
  rfl

theorem length_digits (width n : Nat) : (digits width n).length = width := by
  induction width generalizing n with
  | zero => rfl
  | succ width ih => rw [digits, List.length_append, ih, List.length_singleton]

theorem isDigit_of_mem_digits {width n : Nat} {c : Char} (h : c ∈ digits width n) :
    c.isDigit = true := by
  induction width generalizing n with
  | zero => cases h
  | succ width ih =>
    rcases List.mem_append.mp h with h | h
    · exact ih h
    · rw [List.mem_singleton.mp h]
      exact isDigit_digitChar (Nat.mod_lt n (by decide))

theorem decimalValue_digits {width n : Nat} (h : n < Nat.pow 10 width) :
    decimalValue (digits width n) = n := by
  induction width generalizing n with
  | zero =>
    have hn : n = 0 := Nat.lt_one_iff.mp h
    rw [hn]
    rfl
  | succ width ih =>
    have hfront : n / 10 < Nat.pow 10 width := Nat.div_lt_of_lt_mul (by rwa [Nat.mul_comm])
    rw [digits, decimalValue_concat, ih hfront, toNat_digitChar (Nat.mod_lt n (by decide))]
    omega

/-- A row of digits is the digits of its value, and its value has no more digits. -/
theorem eq_digits_decimalValue {ds : List Char} (h : ∀ c ∈ ds, c.isDigit = true) :
    ds = digits ds.length (decimalValue ds) ∧ decimalValue ds < Nat.pow 10 ds.length := by
  obtain ⟨rs, rfl⟩ : ∃ rs : List Char, ds = rs.reverse := ⟨ds.reverse, by simp⟩
  induction rs with
  | nil => exact ⟨rfl, by decide⟩
  | cons c rs ih =>
    rw [List.reverse_cons] at h ⊢
    obtain ⟨heq, hlt⟩ := ih fun d hd => h d (List.mem_append_left [c] hd)
    have hc : c.isDigit = true := h c (by simp)
    have hvalue : c.toNat - 48 < 10 := by
      have := isDigit_iff.mp hc
      omega
    have hlength : (rs.reverse ++ [c]).length = rs.reverse.length + 1 := List.length_append
    rw [hlength, decimalValue_concat, digits]
    constructor
    · rw [show (10 * decimalValue rs.reverse + (c.toNat - 48)) / 10 = decimalValue rs.reverse by
          omega,
        show (10 * decimalValue rs.reverse + (c.toNat - 48)) % 10 = c.toNat - 48 by omega,
        digitChar_toNat_sub hc, ← heq]
    · have hpow : Nat.pow 10 (rs.reverse.length + 1) = Nat.pow 10 rs.reverse.length * 10 := rfl
      omega

/-- Zeros at the end multiply by ten. -/
theorem decimalValue_append_zeros (ds : List Char) (k : Nat) :
    decimalValue (ds ++ List.replicate k '0') = decimalValue ds * Nat.pow 10 k := by
  induction k with
  | zero => rw [List.replicate_zero, List.append_nil, Nat.pow_eq, Nat.pow_zero, Nat.mul_one]
  | succ k ih =>
    have hzero : '0'.toNat - 48 = 0 := rfl
    rw [List.replicate_succ', ← List.append_assoc, decimalValue_concat, ih, hzero, Nat.add_zero,
      Nat.pow_eq, Nat.pow_eq, Nat.pow_succ, Nat.mul_comm 10, Nat.mul_assoc]

/-- The value of a digit of any script is one digit. -/
theorem digitValue?_lt {c : Char} {d : Nat} (h : digitValue? c = some d) : d < 10 := by
  obtain ⟨start, hstart, rfl⟩ := Option.map_eq_some_iff.mp h
  have hin := List.find?_some hstart
  simp only [Bool.and_eq_true, decide_eq_true_eq] at hin
  omega

theorem digitValue?_digitChar {d : Nat} (h : d < 10) : digitValue? d.digitChar = some d := by
  rw [digitValue?_of_isDigit (isDigit_digitChar h), toNat_digitChar h, Nat.add_sub_cancel_left]

/-- ASCII digits, as many as `width`. -/
structure AsciiDigits (width : Nat) (cs : List Char) : Prop where
  length : cs.length = width
  isDigit : ∀ c ∈ cs, c.isDigit = true

instance (width : Nat) (cs : List Char) : Decidable (AsciiDigits width cs) :=
  decidable_of_iff (cs.length = width ∧ cs.all Char.isDigit = true)
    ⟨fun h => ⟨h.1, List.all_eq_true.mp h.2⟩, fun h => ⟨h.length, List.all_eq_true.mpr h.isDigit⟩⟩

namespace AsciiDigits

variable {width : Nat} {cs : List Char}

theorem not_mem (h : AsciiDigits width cs) {c : Char} (hc : c.isDigit = false) : c ∉ cs := by
  intro hmem
  rw [h.isDigit c hmem] at hc
  cases hc

theorem exists_pair (h : AsciiDigits 2 cs) :
    ∃ a b : Char, cs = [a, b] ∧ a.isDigit = true ∧ b.isDigit = true
      ∧ decimalValue cs = 10 * (a.toNat - 48) + (b.toNat - 48) := by
  obtain ⟨a, b, rfl⟩ := List.length_eq_two.mp h.length
  exact ⟨a, b, rfl, h.isDigit a (by simp), h.isDigit b (by simp), by simp [decimalValue]⟩

end AsciiDigits

theorem asciiDigits_digits (width n : Nat) : AsciiDigits width (digits width n) :=
  ⟨length_digits width n, fun _ => isDigit_of_mem_digits⟩

/-! ### Written numbers -/

theorem digits_zero (width : Nat) : digits width 0 = List.replicate width '0' := by
  induction width with
  | zero => rfl
  | succ width ih =>
    rw [digits, Nat.zero_div, ih, List.replicate_succ']
    rfl

theorem replicate_append_toDigits {width n : Nat} (hwidth : 0 < width)
    (h : n < Nat.pow 10 width) :
    List.replicate (width - (Nat.toDigits 10 n).length) '0' ++ Nat.toDigits 10 n
      = digits width n := by
  induction width generalizing n with
  | zero => cases hwidth
  | succ width ih =>
    by_cases hn : n < 10
    · rw [Nat.toDigits_of_lt_base hn, digits, Nat.div_eq_of_lt hn, digits_zero,
        Nat.mod_eq_of_lt hn]
      rfl
    · have hfront : n / 10 < Nat.pow 10 width := Nat.div_lt_of_lt_mul (by rwa [Nat.mul_comm])
      have hpos : 0 < width := by
        rcases Nat.eq_zero_or_pos width with rfl | hpos
        · exact absurd h hn
        · exact hpos
      rw [Nat.toDigits_of_base_le (by decide) (Nat.not_lt.mp hn), List.length_append,
        List.length_singleton, Nat.add_sub_add_right, ← List.append_assoc, ih hpos hfront, digits]

/-- **Numbers are written as their digits.** -/
theorem toList_padded {width n : Nat} (hwidth : 0 < width) (h : n < Nat.pow 10 width) :
    (padded width n).toList = digits width n := by
  have htext : (toString n).toList = Nat.toDigits 10 n := Nat.toList_repr
  have hlength : (toString n).length = (Nat.toDigits 10 n).length := by
    rw [← String.length_toList, htext]
  rw [padded, String.toList_append, String.toList_ofList, htext, hlength]
  exact replicate_append_toDigits hwidth h

/-! ### Rows of digits -/

/-- The number that a row of digits writes. -/
theorem readDigits?_eq_some_iff {cs : List Char} {n : Nat} :
    readDigits? cs = some n
      ↔ (cs ≠ [] ∧ ∀ c ∈ cs, c.isDigit = true) ∧ decimalValue cs = n := by
  rw [readDigits?, Option.ite_none_right_eq_some, List.all_eq_true, Option.some.injEq]
  rfl

/-- Digits, some of them kept apart by an underscore, and the digits alone. -/
inductive Grouped : (cs ds : List Char) → Prop
  | last {d : Char} (h : d.isDigit = true) : Grouped [d] [d]
  | next {d : Char} {cs ds : List Char} (h : d.isDigit = true) (rest : Grouped cs ds) :
      Grouped (d :: cs) (d :: ds)
  | apart {d : Char} {cs ds : List Char} (h : d.isDigit = true) (rest : Grouped cs ds) :
      Grouped (d :: '_' :: cs) (d :: ds)

namespace Grouped

variable {cs ds : List Char}

theorem all_isDigit (h : Grouped cs ds) : ds ≠ [] ∧ ∀ c ∈ ds, c.isDigit = true := by
  induction h with
  | last h => exact ⟨List.cons_ne_nil _ _, by simpa using h⟩
  | next h _ ih => exact ⟨List.cons_ne_nil _ _, by simpa [h] using ih.2⟩
  | apart h _ ih => exact ⟨List.cons_ne_nil _ _, by simpa [h] using ih.2⟩

/-- The first character and the last one are digits. -/
theorem isDigit_head (h : Grouped cs ds) : ∃ d rest, cs = d :: rest ∧ d.isDigit = true := by
  cases h with
  | last h => exact ⟨_, [], rfl, h⟩
  | next h _ => exact ⟨_, _, rfl, h⟩
  | apart h _ => exact ⟨_, _, rfl, h⟩

theorem isDigit_getLast (h : Grouped cs ds) : ∃ front d, cs = front ++ [d] ∧ d.isDigit = true := by
  induction h with
  | last h => exact ⟨[], _, rfl, h⟩
  | @next d cs ds _ _ ih =>
    obtain ⟨front, e, rfl, he⟩ := ih
    exact ⟨d :: front, e, rfl, he⟩
  | @apart d cs ds _ _ ih =>
    obtain ⟨front, e, rfl, he⟩ := ih
    exact ⟨d :: '_' :: front, e, rfl, he⟩

/-- Digits need not be kept apart. -/
theorem self (hne : ds ≠ []) (hall : ∀ c ∈ ds, c.isDigit = true) : Grouped ds ds := by
  induction ds with
  | nil => exact absurd rfl hne
  | cons d rest ih =>
    have hd : d.isDigit = true := hall d List.mem_cons_self
    cases rest with
    | nil => exact .last hd
    | cons e rest =>
      exact .next hd (ih (List.cons_ne_nil _ _) fun c hc => hall c (List.mem_cons_of_mem d hc))

/-- Nothing is longer than what it is grouped from. -/
theorem length_le (h : Grouped cs ds) : ds.length ≤ cs.length := by
  induction h with
  | last => exact Nat.le_refl 1
  | next _ _ ih => exact Nat.succ_le_succ ih
  | apart _ _ ih => exact Nat.le_succ_of_le (Nat.succ_le_succ ih)

end Grouped

/-! ### Underscores -/

/-- A character that is no underscore stays and says whether it is a digit. -/
theorem ungroup_cons (afterDigit : Bool) {c : Char} (hc : c ≠ '_') (cs : List Char) :
    ungroup afterDigit (c :: cs) = (ungroup c.isDigit cs).map (c :: ·) := by
  rw [ungroup]
  · rintro d rest rfl
    exact absurd rfl hc
  · rintro rfl
    exact absurd rfl hc

theorem ne_underscore_of_isDigit {c : Char} (h : c.isDigit = true) : c ≠ '_' := by
  rintro rfl
  cases h

/-- Underscores within grouped digits are removed. -/
theorem ungroup_append {body ds : List Char} (h : Grouped body ds) (afterDigit : Bool)
    (rest : List Char) :
    ungroup afterDigit (body ++ rest) = (ungroup true rest).map (ds ++ ·) := by
  induction h generalizing afterDigit with
  | @last d hd =>
    rw [List.singleton_append, ungroup_cons _ (ne_underscore_of_isDigit hd), hd]
    rfl
  | @next d cs ds hd _ ih =>
    rw [List.cons_append, ungroup_cons _ (ne_underscore_of_isDigit hd), ih, Option.map_map]
    rfl
  | @apart d cs ds hd hcs ih =>
    obtain ⟨e, tail, rfl, he⟩ := hcs.isDigit_head
    have htail := ih true
    rw [List.cons_append, ungroup_cons _ (ne_underscore_of_isDigit he), he] at htail
    rw [List.cons_append, List.cons_append, List.cons_append,
      ungroup_cons _ (ne_underscore_of_isDigit hd), hd, ungroup, he, Bool.and_self, if_pos rfl,
      htail, Option.map_map]
    rfl

/-- Grouped digits in front of what comes out as `tail`. -/
def StartsGrouped (cs ds tail : List Char) : Prop :=
  ∃ body rest, cs = body ++ rest ∧ Grouped body ds ∧ ungroup true rest = some tail

/-- One more digit in front of a row that may be empty, or kept apart by an underscore. -/
theorem StartsGrouped.cons {d : Char} {rest ds tail : List Char} (hd : d.isDigit = true)
    (hout : ungroup true rest = some (ds ++ tail))
    (h : ds ≠ [] → StartsGrouped rest ds tail
      ∨ ∃ rest', rest = '_' :: rest' ∧ StartsGrouped rest' ds tail) :
    StartsGrouped (d :: rest) (d :: ds) tail := by
  cases ds with
  | nil => exact ⟨[d], rest, rfl, .last hd, hout⟩
  | cons e ds =>
    rcases h (List.cons_ne_nil e ds) with hrest | ⟨rest', rfl, hrest⟩
    · obtain ⟨body, back, rfl, hbody, hback⟩ := hrest
      exact ⟨d :: body, back, rfl, .next hd hbody, hback⟩
    · obtain ⟨body, back, rfl, hbody, hback⟩ := hrest
      exact ⟨d :: '_' :: body, back, rfl, .apart hd hbody, hback⟩

/-- What comes out as a row of digits went in grouped, perhaps after an underscore that followed an
earlier digit. -/
theorem startsGrouped_of_ungroup {cs ds tail : List Char} {afterDigit : Bool}
    (h : ungroup afterDigit cs = some (ds ++ tail)) (hne : ds ≠ [])
    (hall : ∀ c ∈ ds, c.isDigit = true) :
    StartsGrouped cs ds tail
      ∨ afterDigit = true ∧ ∃ rest, cs = '_' :: rest ∧ StartsGrouped rest ds tail := by
  obtain ⟨d, ds, rfl⟩ := List.exists_cons_of_ne_nil hne
  have hall' : ∀ c ∈ ds, c.isDigit = true := fun c hc => hall c (List.mem_cons_of_mem d hc)
  fun_induction ungroup afterDigit cs generalizing d ds with
  | case1 => cases h
  | case2 _ c rest hc ih =>
    obtain ⟨hafter, -⟩ := Bool.and_eq_true_iff.mp hc
    obtain ⟨out, hout, heq⟩ := Option.map_eq_some_iff.mp h
    obtain ⟨rfl, rfl⟩ := List.cons.inj heq
    refine .inr ⟨hafter, _, rfl, .cons (hall c List.mem_cons_self) hout fun hne => ?_⟩
    obtain ⟨e, ds, rfl⟩ := List.exists_cons_of_ne_nil hne
    exact (ih e ds hout hne hall' fun c hc => hall' c (List.mem_cons_of_mem e hc)).imp_right
      And.right
  | case3 => cases h
  | case4 => cases h
  | case5 _ c rest _ _ ih =>
    obtain ⟨out, hout, heq⟩ := Option.map_eq_some_iff.mp h
    obtain ⟨rfl, rfl⟩ := List.cons.inj heq
    have hc : c.isDigit = true := hall c List.mem_cons_self
    refine .inl (.cons hc (hc ▸ hout) fun hne => ?_)
    obtain ⟨e, ds, rfl⟩ := List.exists_cons_of_ne_nil hne
    exact (ih e ds hout hne hall' fun c hc => hall' c (List.mem_cons_of_mem e hc)).imp_right
      And.right

/-- Nothing comes out of nothing alone. -/
theorem eq_nil_of_ungroup {afterDigit : Bool} {cs : List Char}
    (h : ungroup afterDigit cs = some []) : cs = [] := by
  unfold ungroup at h
  split at h
  · rfl
  · split at h
    · simp at h
    · cases h
  · cases h
  · simp at h

/-- A character that is no digit comes out as it went in. -/
theorem ungroup_eq_cons_iff {afterDigit : Bool} {c : Char} (hc : c ≠ '_')
    (hdigit : c.isDigit = false) {cs out : List Char} :
    ungroup afterDigit cs = some (c :: out)
      ↔ ∃ rest, cs = c :: rest ∧ ungroup false rest = some out := by
  constructor
  · intro h
    unfold ungroup at h
    split at h
    · cases h
    · split at h
      · rename_i hcond
        obtain ⟨out', -, heq⟩ := Option.map_eq_some_iff.mp h
        obtain ⟨rfl, rfl⟩ := List.cons.inj heq
        simp [hdigit] at hcond
      · cases h
    · cases h
    · obtain ⟨out', hout, heq⟩ := Option.map_eq_some_iff.mp h
      obtain ⟨rfl, rfl⟩ := List.cons.inj heq
      exact ⟨_, rfl, hdigit ▸ hout⟩
  · rintro ⟨rest, rfl, hrest⟩
    rw [ungroup_cons _ hc, hdigit, hrest]
    rfl

/-- A row of digits and nothing else. -/
theorem ungroup_eq_digits_iff {cs ds : List Char} :
    ungroup false cs = some ds ∧ ds ≠ [] ∧ (∀ c ∈ ds, c.isDigit = true) ↔ Grouped cs ds := by
  constructor
  · rintro ⟨h, hne, hall⟩
    rw [← List.append_nil ds] at h
    rcases startsGrouped_of_ungroup h hne hall with ⟨body, rest, rfl, hbody, hrest⟩ | ⟨hfalse, -⟩
    · rw [eq_nil_of_ungroup hrest, List.append_nil]
      exact hbody
    · cases hfalse
  · intro h
    have hout := ungroup_append h false []
    rw [List.append_nil] at hout
    exact ⟨by simpa [ungroup] using hout, h.all_isDigit⟩

/-! ### Signs -/

/-- A row of digits, at least one. -/
def IsRow (ds : List Char) : Prop := ds ≠ [] ∧ ∀ c ∈ ds, c.isDigit = true

theorem readSigned?_eq_some_iff {out : List Char} {i : Int} :
    readSigned? out = some i
      ↔ ∃ ds, IsRow ds ∧ (out = '-' :: ds ∧ i = -(decimalValue ds : Int)
          ∨ (out = '+' :: ds ∨ out = ds) ∧ i = decimalValue ds) := by
  constructor
  · intro h
    unfold readSigned? at h
    split at h
    · rename_i ds
      cases hn : readDigits? ds with
      | none => simp [hn] at h
      | some n =>
        obtain ⟨hrow, rfl⟩ := readDigits?_eq_some_iff.mp hn
        exact ⟨ds, hrow, .inl ⟨rfl, by simpa [hn] using h.symm⟩⟩
    · rename_i ds
      obtain ⟨n, hn, rfl⟩ := Option.map_eq_some_iff.mp h
      obtain ⟨hrow, rfl⟩ := readDigits?_eq_some_iff.mp hn
      exact ⟨ds, hrow, .inr ⟨.inl rfl, rfl⟩⟩
    · obtain ⟨n, hn, rfl⟩ := Option.map_eq_some_iff.mp h
      obtain ⟨hrow, rfl⟩ := readDigits?_eq_some_iff.mp hn
      exact ⟨_, hrow, .inr ⟨.inr rfl, rfl⟩⟩
  · rintro ⟨ds, hrow, hsign⟩
    have hread := readDigits?_eq_some_iff.mpr ⟨hrow, rfl⟩
    rcases hsign with ⟨rfl, rfl⟩ | ⟨rfl | rfl, rfl⟩
    · simp [readSigned?, hread]
    · simp [readSigned?, hread]
    · -- a digit is no sign
      unfold readSigned?
      split
      · exact absurd (hrow.2 '-' List.mem_cons_self) (by decide)
      · exact absurd (hrow.2 '+' List.mem_cons_self) (by decide)
      · rw [hread]
        rfl

/-- Grouped digits after an optional sign, the digits alone, and the integer that they write. -/
def SignedDigits (cs ds : List Char) (i : Int) : Prop :=
  ∃ body, Grouped body ds ∧ (cs = '-' :: body ∧ i = -(decimalValue ds : Int)
    ∨ (cs = '+' :: body ∨ cs = body) ∧ i = decimalValue ds)

theorem AsciiDigits.isRow {width : Nat} {cs : List Char} (h : AsciiDigits width cs)
    (hwidth : 0 < width) : IsRow cs :=
  ⟨List.length_pos_iff.mp (h.length ▸ hwidth), h.isDigit⟩

/-- Digits after an optional sign are read once their underscores are removed. -/
theorem signedDigits_iff {cs ds : List Char} {i : Int} :
    SignedDigits cs ds i
      ↔ ∃ out, ungroup false cs = some out ∧ readSigned? out = some i
          ∧ out.filter Char.isDigit = ds := by
  have hfilter {ds : List Char} (hrow : IsRow ds) : ds.filter Char.isDigit = ds :=
    List.filter_eq_self.mpr hrow.2
  constructor
  · rintro ⟨body, hbody, hsign⟩
    obtain ⟨hout, hrow⟩ := ungroup_eq_digits_iff.mpr hbody
    rcases hsign with ⟨rfl, rfl⟩ | ⟨rfl | rfl, rfl⟩
    · refine ⟨'-' :: ds, ?_, readSigned?_eq_some_iff.mpr ⟨ds, hrow, .inl ⟨rfl, rfl⟩⟩, ?_⟩
      · exact (ungroup_eq_cons_iff (by decide) (by decide)).mpr ⟨body, rfl, hout⟩
      · rw [List.filter_cons_of_neg (by decide), hfilter hrow]
    · refine ⟨'+' :: ds, ?_, readSigned?_eq_some_iff.mpr ⟨ds, hrow, .inr ⟨.inl rfl, rfl⟩⟩, ?_⟩
      · exact (ungroup_eq_cons_iff (by decide) (by decide)).mpr ⟨body, rfl, hout⟩
      · rw [List.filter_cons_of_neg (by decide), hfilter hrow]
    · exact ⟨ds, hout, readSigned?_eq_some_iff.mpr ⟨ds, hrow, .inr ⟨.inr rfl, rfl⟩⟩, hfilter hrow⟩
  · rintro ⟨out, hout, hread, rfl⟩
    obtain ⟨ds, hrow, ⟨rfl, rfl⟩ | ⟨rfl | rfl, rfl⟩⟩ := readSigned?_eq_some_iff.mp hread
    · obtain ⟨body, rfl, hbody⟩ := (ungroup_eq_cons_iff (by decide) (by decide)).mp hout
      rw [List.filter_cons_of_neg (by decide), hfilter hrow]
      exact ⟨body, ungroup_eq_digits_iff.mp ⟨hbody, hrow⟩, .inl ⟨rfl, rfl⟩⟩
    · obtain ⟨body, rfl, hbody⟩ := (ungroup_eq_cons_iff (by decide) (by decide)).mp hout
      rw [List.filter_cons_of_neg (by decide), hfilter hrow]
      exact ⟨body, ungroup_eq_digits_iff.mp ⟨hbody, hrow⟩, .inr ⟨.inl rfl, rfl⟩⟩
    · rw [hfilter hrow]
      exact ⟨cs, ungroup_eq_digits_iff.mp ⟨hout, hrow⟩, .inr ⟨.inr rfl, rfl⟩⟩

/-! ### Blanks -/

def Blank (cs : List Char) : Prop := ∀ c ∈ cs, isAsciiBlank c = true

theorem exists_trimEnd (cs : List Char) :
    ∃ back, cs = trimEnd cs ++ back ∧ Blank back := by
  refine ⟨(cs.reverse.takeWhile isAsciiBlank).reverse, ?_, ?_⟩
  · rw [trimEnd, ← List.reverse_append, List.takeWhile_append_dropWhile, List.reverse_reverse]
  · intro c hc
    exact List.all_eq_true.mp List.all_takeWhile c (List.mem_reverse.mp hc)

/-- Blanks at the end are dropped as far as there is nothing else. -/
theorem trimEnd_append {core back : List Char} (hback : Blank back)
    (hcore : ∀ front c, core = front ++ [c] → isAsciiBlank c = false) :
    trimEnd (core ++ back) = core := by
  have hblank : ∀ c ∈ back.reverse, isAsciiBlank c = true :=
    fun c hc => hback c (List.mem_reverse.mp hc)
  rw [trimEnd, List.reverse_append, List.dropWhile_append_of_pos hblank]
  rcases List.eq_nil_or_concat core with rfl | ⟨front, c, rfl⟩
  · rfl
  · rw [List.concat_eq_append, List.reverse_append, List.reverse_singleton, List.singleton_append,
      List.dropWhile_cons_of_neg (by rw [hcore front c (List.concat_eq_append ..)]; decide),
      List.reverse_cons, List.reverse_reverse]

theorem not_isAsciiBlank_of_isDigit {c : Char} (h : c.isDigit = true) : isAsciiBlank c = false := by
  have hc := isDigit_iff.mp h
  have hspace : c ≠ ' ' := by
    rintro rfl
    cases h
  simp only [isAsciiBlank, hspace, decide_false, Bool.or_false, Bool.and_eq_false_iff,
    decide_eq_false_iff_not]
  omega

/-- A text that ends with grouped digits does not end with a blank. -/
theorem Grouped.last_not_blank {body ds : List Char} (h : Grouped body ds) (before : List Char) :
    ∀ front c, before ++ body = front ++ [c] → isAsciiBlank c = false := by
  intro front c heq
  obtain ⟨front', d, rfl, hd⟩ := h.isDigit_getLast
  rw [← List.append_assoc] at heq
  obtain ⟨-, hc⟩ := List.append_inj' heq rfl
  rw [← List.head_eq_of_cons_eq hc]
  exact not_isAsciiBlank_of_isDigit hd

namespace SignedDigits

variable {cs ds : List Char} {i : Int}

theorem last_not_blank (h : SignedDigits cs ds i) (before : List Char) :
    ∀ front c, before ++ cs = front ++ [c] → isAsciiBlank c = false := by
  obtain ⟨body, hbody, ⟨rfl, -⟩ | ⟨rfl | rfl, -⟩⟩ := h
  · have := hbody.last_not_blank (before ++ ['-'])
    simpa using this
  · have := hbody.last_not_blank (before ++ ['+'])
    simpa using this
  · exact hbody.last_not_blank before

theorem head_not_blank (h : SignedDigits cs ds i) :
    ∃ c rest, cs = c :: rest ∧ isAsciiBlank c = false := by
  obtain ⟨body, hbody, ⟨rfl, -⟩ | ⟨rfl | rfl, -⟩⟩ := h
  · exact ⟨'-', body, rfl, by decide⟩
  · exact ⟨'+', body, rfl, by decide⟩
  · obtain ⟨d, rest, rfl, hd⟩ := hbody.isDigit_head
    exact ⟨d, rest, rfl, not_isAsciiBlank_of_isDigit hd⟩

end SignedDigits

/-! ### What the readers accept -/

/-- Signed digits of any script, with blanks around them. -/
def LooseInteger (cs : List Char) (i : Int) : Prop :=
  ∃ front core back ds, cs.map plain = front ++ core ++ back ∧ Blank front ∧ Blank back
    ∧ SignedDigits core ds i ∧ ds.length ≤ maxDigits

/-- **Which texts are integers.** -/
theorem readInteger?_eq_some_iff {cs : List Char} {i : Int} :
    readInteger? cs = some i ↔ LooseInteger cs i := by
  rw [readInteger?, Option.bind_eq_some_iff]
  constructor
  · rintro ⟨out, hout, hread⟩
    obtain ⟨hlength, hread⟩ := Option.ite_none_right_eq_some.mp hread
    obtain ⟨back, hback, hblank⟩ := exists_trimEnd ((cs.map plain).dropWhile isAsciiBlank)
    refine ⟨(cs.map plain).takeWhile isAsciiBlank, _, back, _, ?_,
      List.all_eq_true.mp List.all_takeWhile, hblank, signedDigits_iff.mpr ⟨out, hout, hread, rfl⟩,
      hlength⟩
    rw [List.append_assoc, ← hback, List.takeWhile_append_dropWhile]
  · rintro ⟨front, core, back, ds, hcs, hfront, hback, hcore, hlength⟩
    obtain ⟨c, rest, rfl, hc⟩ := hcore.head_not_blank
    have htrim : trimEnd ((cs.map plain).dropWhile isAsciiBlank) = c :: rest := by
      rw [hcs, List.append_assoc, List.dropWhile_append_of_pos hfront, List.cons_append,
        List.dropWhile_cons_of_neg (by rw [hc]; decide), ← List.cons_append]
      exact trimEnd_append hback (hcore.last_not_blank [])
    obtain ⟨out, hout, hread, rfl⟩ := signedDigits_iff.mp hcore
    exact ⟨out, htrim ▸ hout, (if_pos hlength).trans hread⟩

theorem map_plain_of_isDigit {cs : List Char} (h : ∀ c ∈ cs, c.isDigit = true) :
    cs.map plain = cs := by
  refine (List.map_congr_left fun c hc => ?_).trans (List.map_id cs)
  have hdigit := isDigit_iff.mp (h c hc)
  exact if_pos (by omega)

theorem blank_nil : Blank [] := fun _ h => nomatch h

/-- A row of digits is one of the forms. -/
theorem LooseInteger.of_isRow {cs : List Char} (h : IsRow cs) (hlength : cs.length ≤ maxDigits) :
    LooseInteger cs (decimalValue cs) :=
  ⟨[], cs, [], cs, by rw [map_plain_of_isDigit h.2, List.nil_append, List.append_nil], blank_nil,
    blank_nil, ⟨cs, .self h.1 h.2, .inr ⟨.inr rfl, rfl⟩⟩, hlength⟩

/-- An exponent, or nothing for the exponent zero. -/
def Exponent (cs : List Char) (exponent : Int) : Prop :=
  cs = [] ∧ exponent = 0
    ∨ ∃ mark rest ds, (mark = 'e' ∨ mark = 'E') ∧ cs = mark :: rest ∧ SignedDigits rest ds exponent

/-- Digits of any script, possibly none, then an exponent or none, then blanks. -/
def LooseFraction (cs : List Char) (f : Decimal) : Prop :=
  ∃ body exponentText back ds exponent, cs.map plain = body ++ exponentText ++ back ∧ Blank back
    ∧ (body = [] ∧ ds = [] ∨ Grouped body ds) ∧ Exponent exponentText exponent
    ∧ f = { digits := decimalValue ds, scale := ds.length, exponent }

/-- Digits alone are one of the forms, also none at all. -/
theorem LooseFraction.of_isDigit {cs : List Char} (h : ∀ c ∈ cs, c.isDigit = true) :
    LooseFraction cs { digits := decimalValue cs, scale := cs.length, exponent := 0 } := by
  refine ⟨cs, [], [], cs, 0, by rw [map_plain_of_isDigit h, List.append_nil, List.append_nil],
    blank_nil, ?_, .inl ⟨rfl, rfl⟩, rfl⟩
  cases cs with
  | nil => exact .inl ⟨rfl, rfl⟩
  | cons c cs => exact .inr (.self (List.cons_ne_nil c cs) h)

/-- A fraction has no more digits than characters, and its digits write a number of so many. -/
theorem LooseFraction.digits_lt {cs : List Char} {f : Decimal} (h : LooseFraction cs f) :
    f.scale ≤ cs.length ∧ f.digits < Nat.pow 10 f.scale := by
  obtain ⟨body, exponentText, back, ds, exponent, hcs, -, hbody, -, rfl⟩ := h
  have hlength : cs.length = body.length + exponentText.length + back.length := by
    rw [← List.length_map plain, hcs, List.length_append, List.length_append]
  rcases hbody with ⟨rfl, rfl⟩ | hbody
  · exact ⟨Nat.zero_le _, Nat.one_pos⟩
  · have hle := hbody.length_le
    exact ⟨by simp only; omega, (eq_digits_decimalValue hbody.all_isDigit.2).2⟩

/-- The same, once underscores are removed. -/
def PlainExponent (cs : List Char) (exponent : Int) : Prop :=
  cs = [] ∧ exponent = 0
    ∨ ∃ mark rest, (mark = 'e' ∨ mark = 'E') ∧ cs = mark :: rest ∧ readSigned? rest = some exponent

theorem exponent_iff {afterDigit : Bool} {cs : List Char} {exponent : Int} :
    Exponent cs exponent
      ↔ ∃ out, ungroup afterDigit cs = some out ∧ PlainExponent out exponent := by
  have hmark {mark : Char} (h : mark = 'e' ∨ mark = 'E') : mark ≠ '_' ∧ mark.isDigit = false := by
    rcases h with rfl | rfl <;> decide
  constructor
  · rintro (⟨rfl, rfl⟩ | ⟨mark, rest, ds, he, rfl, hrest⟩)
    · exact ⟨[], by rw [ungroup], .inl ⟨rfl, rfl⟩⟩
    · obtain ⟨out, hout, hread, -⟩ := signedDigits_iff.mp hrest
      exact ⟨mark :: out, (ungroup_eq_cons_iff (hmark he).1 (hmark he).2).mpr ⟨rest, rfl, hout⟩,
        .inr ⟨mark, out, he, rfl, hread⟩⟩
  · rintro ⟨out, hout, ⟨rfl, rfl⟩ | ⟨mark, out, he, rfl, hread⟩⟩
    · exact .inl ⟨eq_nil_of_ungroup hout, rfl⟩
    · obtain ⟨rest, rfl, hrest⟩ := (ungroup_eq_cons_iff (hmark he).1 (hmark he).2).mp hout
      exact .inr ⟨mark, rest, _, he, rfl, signedDigits_iff.mpr ⟨out, hrest, hread, rfl⟩⟩

/-- The digits in front and what follows them are read apart. -/
theorem readPlainFraction?_eq_some_iff {out : List Char} {f : Decimal} :
    readPlainFraction? out = some f
      ↔ ∃ ds tail exponent, out = ds ++ tail ∧ (∀ c ∈ ds, c.isDigit = true)
          ∧ PlainExponent tail exponent
          ∧ f = { digits := decimalValue ds, scale := ds.length, exponent } := by
  have hvalue {ds : List Char} (hall : ∀ c ∈ ds, c.isDigit = true) :
      (readDigits? ds).getD 0 = decimalValue ds := by
    cases ds with
    | nil => rfl
    | cons d ds =>
      rw [readDigits?_eq_some_iff.mpr ⟨⟨List.cons_ne_nil d ds, hall⟩, rfl⟩]
      rfl
  have hall : ∀ c ∈ out.takeWhile Char.isDigit, c.isDigit = true :=
    List.all_eq_true.mp List.all_takeWhile
  constructor
  · intro h
    have hout := (List.takeWhile_append_dropWhile (p := Char.isDigit) (l := out)).symm
    simp only [readPlainFraction?, hvalue hall] at h
    split at h
    · rename_i htail
      rw [htail] at hout
      exact ⟨_, [], 0, hout, hall, .inl ⟨rfl, rfl⟩, (Option.some.inj h).symm⟩
    · rename_i mark rest htail
      rw [htail] at hout
      obtain ⟨hmark, h⟩ := Option.ite_none_right_eq_some.mp h
      obtain ⟨exponent, hread, rfl⟩ := Option.map_eq_some_iff.mp h
      exact ⟨_, _, exponent, hout, hall, .inr ⟨mark, rest, hmark, rfl, hread⟩, rfl⟩
  · rintro ⟨ds, tail, exponent, rfl, hds, htail, rfl⟩
    have hhead : tail.takeWhile Char.isDigit = [] ∧ tail.dropWhile Char.isDigit = tail := by
      rcases htail with ⟨rfl, -⟩ | ⟨mark, rest, hmark, rfl, -⟩
      · exact ⟨rfl, rfl⟩
      · have hdigit : ¬ mark.isDigit = true := by
          rcases hmark with rfl | rfl <;> decide
        exact ⟨List.takeWhile_cons_of_neg hdigit, List.dropWhile_cons_of_neg hdigit⟩
    simp only [readPlainFraction?, List.takeWhile_append_of_pos hds,
      List.dropWhile_append_of_pos hds, hhead.1, hhead.2, List.append_nil, hvalue hds]
    rcases htail with ⟨rfl, rfl⟩ | ⟨mark, rest, hmark, rfl, hread⟩
    · rfl
    · simp only [if_pos hmark, hread]
      rfl

/-- A fraction does not end with a blank of its own. -/
theorem Exponent.last_not_blank {cs body ds : List Char} {exponent : Int}
    (h : Exponent cs exponent) (hbody : body = [] ∧ ds = [] ∨ Grouped body ds) :
    ∀ front c, body ++ cs = front ++ [c] → isAsciiBlank c = false := by
  rcases h with ⟨rfl, -⟩ | ⟨mark, rest, _, -, rfl, hrest⟩
  · rcases hbody with ⟨rfl, -⟩ | hbody
    · intro front c heq
      exact absurd heq.symm (List.append_ne_nil_of_right_ne_nil front (List.cons_ne_nil c []))
    · have := hbody.last_not_blank []
      simpa using this
  · have := hrest.last_not_blank (body ++ [mark])
    simpa using this

/-- **Which texts are fractions.** -/
theorem readFraction?_eq_some_iff {cs : List Char} {f : Decimal} :
    readFraction? cs = some f ↔ LooseFraction cs f := by
  rw [readFraction?, Option.bind_eq_some_iff]
  constructor
  · rintro ⟨out, hout, hread⟩
    obtain ⟨back, hback, hblank⟩ := exists_trimEnd (cs.map plain)
    obtain ⟨ds, tail, exponent, rfl, hall, htail, rfl⟩ := readPlainFraction?_eq_some_iff.mp hread
    cases ds with
    | nil =>
      exact ⟨[], _, back, [], exponent, hback, hblank, .inl ⟨rfl, rfl⟩,
        exponent_iff.mpr ⟨tail, hout, htail⟩, rfl⟩
    | cons d ds =>
      rcases startsGrouped_of_ungroup hout (List.cons_ne_nil d ds) hall with
        ⟨body, rest, hcore, hbody, hrest⟩ | ⟨hfalse, -⟩
      · exact ⟨body, rest, back, _, exponent, hcore ▸ hback, hblank, .inr hbody,
          exponent_iff.mpr ⟨tail, hrest, htail⟩, rfl⟩
      · cases hfalse
  · rintro ⟨body, exponentText, back, ds, exponent, hcs, hback, hbody, hexponent, rfl⟩
    rw [hcs, trimEnd_append hback (hexponent.last_not_blank hbody)]
    rcases hbody with ⟨rfl, rfl⟩ | hbody
    · obtain ⟨tail, hout, htail⟩ := exponent_iff.mp hexponent
      exact ⟨tail, hout,
        readPlainFraction?_eq_some_iff.mpr ⟨[], tail, exponent, rfl, by simp, htail, rfl⟩⟩
    · obtain ⟨tail, hout, htail⟩ := exponent_iff.mp hexponent
      refine ⟨ds ++ tail, ?_, readPlainFraction?_eq_some_iff.mpr
        ⟨ds, tail, exponent, rfl, hbody.all_isDigit.2, htail, rfl⟩⟩
      rw [ungroup_append hbody, hout]
      rfl

end CloudEvents.Text
