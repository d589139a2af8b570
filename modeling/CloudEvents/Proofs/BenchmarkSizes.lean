import CloudEvents.Proofs.BatchEncoding
import CloudEvents.Proofs.BenchmarkEvents
import CloudEvents.Proofs.Lengths
import Mathlib.Algebra.BigOperators.Intervals
import Mathlib.Algebra.Order.BigOperators.Group.Finset

/-!
# The size of the benchmark

An event of the benchmark has a fixed part, the time and its number, which is written twice in
decimal digits and once as a varint. No part reaches 128 bytes, so every length takes one byte, and
the size of a batch is a sum over its events (`Benchmark.totalLength`).

A time takes up between none and 17 bytes of its event, whatever the clock says. Numbers of as many
digits and of varints as long take up the same room, so the sum of these goes by pieces. Together
that gives the numbers of events between which the limit of the default codec is reached.

## Main definitions

* `Benchmark.timeLength`, `Benchmark.numberLength` — the parts of an event that vary
* `Benchmark.totalLength` — the length of a batch

## Main results

* `Benchmark.length_sample` — the length of an event
* `Benchmark.length_frames_samples` — the length of a batch
* `Benchmark.totalLength_le`, `Benchmark.lt_totalLength` — how many events fit
-/

namespace CloudEvents

/-! ### Short fields -/

theorem Layout.length_delimited {number : Nat} {bytes : Bytes} (h : bytes.length < 128) :
    (delimited number bytes).length = bytes.length + 2 := by
  rw [delimited, List.length_cons, List.length_append, Varint.length_encode_of_lt h]
  omega

theorem Layout.length_entry {name : String} {v : AttributeValue}
    (h : (Bytes.ofText name).length + (value v).length < 124) :
    (entry (name, v)).length = (Bytes.ofText name).length + (value v).length + 6 := by
  have hbody : (text 1 name ++ delimited 2 (value v)).length
      = (Bytes.ofText name).length + (value v).length + 4 := by
    rw [List.length_append, text, length_delimited (by omega), length_delimited (by omega)]
    omega
  rw [entry, length_delimited (by rw [hbody]; omega), hbody]

theorem length_frame {payload : Bytes} (h : payload.length < 128) :
    (frame payload).length = payload.length + 2 := by
  rw [frame, List.length_cons, List.length_append, Varint.length_encode_of_lt h]
  omega

theorem Varint.ofInt_natCast {n : Nat} (h : n < UInt64.size) : ofInt n = n := by
  have hcast := natCast_ofInt n
  rw [← Int.natCast_mod, Nat.mod_eq_of_lt h] at hcast
  exact Int.ofNat.inj hcast

theorem Bytes.ofText_append (a b : String) : ofText (a ++ b) = ofText a ++ ofText b := by
  rw [ofText_eq_flatMap, ofText_eq_flatMap, ofText_eq_flatMap, String.toList_append,
    List.flatMap_append]

namespace Benchmark

variable {now : Timestamp} {i n : Nat}

/-- The bytes of a time in an event. -/
def timeLength (now : Timestamp) : Nat := (Layout.timestamp now).length

/-- The bytes of its number in an event: twice its digits and once its varint. -/
def numberLength (i : Nat) : Nat := 2 * (Nat.toDigits 10 i).length + (Varint.encode i).length

/-! ### One event -/

theorem length_ofText_toString (i : Nat) :
    (Bytes.ofText (toString i)).length = (Nat.toDigits 10 i).length := by
  have hone : ∀ c ∈ Nat.toDigits 10 i, (String.utf8EncodeChar c).length = 1 := by
    intro c hc
    have hdigit := Nat.isDigit_of_mem_toDigits (by decide) (by decide) hc
    have hrange := Char.isDigit_iff_toNat.mp hdigit
    rw [String.length_utf8EncodeChar, Char.utf8Size_eq_one_iff, UInt32.le_iff_toNat_le]
    exact Nat.le_trans hrange.2 (by decide)
  have htext : (toString i).toList = Nat.toDigits 10 i := Nat.toList_repr
  rw [Bytes.ofText_eq_flatMap, htext, List.length_flatMap, List.map_congr_left hone,
    List.map_const', List.sum_const_nat, Nat.mul_one]

theorem length_toDigits_le (hi : i < maxCount) : (Nat.toDigits 10 i).length ≤ 10 :=
  (Nat.length_toDigits_le_iff (by decide) (by decide)).mpr (Nat.lt_trans hi (by decide))

theorem length_varint_le (hi : i < maxCount) : (Varint.encode i).length ≤ 5 :=
  Varint.length_encode_le (Nat.lt_trans hi (by decide)) (by decide)

theorem timeLength_le (hnow : now.Valid) : timeLength now ≤ 17 := by
  have hseconds : (Varint.encode (Varint.ofInt now.seconds)).length ≤ 10 :=
    Varint.length_encode_le (Nat.lt_trans (Varint.ofInt_lt _) (by decide)) (by decide)
  have hnanos : (Varint.encode (Varint.ofInt now.nanos)).length ≤ 5 := by
    obtain ⟨nanos, hnat⟩ := Int.eq_ofNat_of_zero_le hnow.nanos_nonneg
    have hlt := hnow.nanos_lt
    rw [hnat, Timestamp.nanosPerSecond] at hlt
    rw [hnat, Varint.ofInt_natCast (by simp only [UInt64.size]; omega)]
    exact Varint.length_encode_le (by simp only [Nat.pow_eq, Nat.reducePow]; omega) (by decide)
  have hfield {number : Nat} {value : Int} {bound : Nat}
      (h : (Varint.encode (Varint.ofInt value)).length ≤ bound) :
      (if value = 0 then [] else Layout.integer number value).length ≤ bound + 1 := by
    split
    · exact Nat.zero_le _
    · exact Nat.succ_le_succ h
  rw [timeLength, Layout.timestamp, List.length_append]
  exact Nat.add_le_add (hfield hseconds) (hfield hnanos)

theorem length_id (hi : i < maxCount) :
    (Layout.text 1 (toString i)).length = (Nat.toDigits 10 i).length + 2 := by
  have hdigits := length_toDigits_le hi
  rw [Layout.text, Layout.length_delimited] <;> rw [length_ofText_toString]
  omega

theorem length_sequence (hi : i < maxCount) :
    (Layout.entry ("sequence", .integer i)).length = (Varint.encode i).length + 15 := by
  have hvarint := length_varint_le hi
  have hname : (Bytes.ofText "sequence").length = 8 := by decide
  have hvalue : (Layout.value (.integer i)).length = (Varint.encode i).length + 1 := by
    rw [Layout.value, Layout.integer, List.length_cons,
      Varint.ofInt_natCast (Nat.lt_trans hi (by decide))]
  rw [Layout.length_entry (by rw [hname, hvalue]; omega), hname, hvalue]
  omega

theorem length_time (hnow : now.Valid) :
    (Layout.entry ("time", .timestamp now)).length = timeLength now + 12 := by
  have hclock := timeLength_le hnow
  have hname : (Bytes.ofText "time").length = 4 := by decide
  have hvalue : (Layout.value (.timestamp now)).length = timeLength now + 2 :=
    Layout.length_delimited (Nat.lt_of_le_of_lt hclock (by decide))
  rw [Layout.length_entry (by rw [hname, hvalue]; omega), hname, hvalue]
  omega

theorem length_data (hi : i < maxCount) :
    (Layout.payload (.binary (Bytes.ofText s!"data{i}"))).length
      = (Nat.toDigits 10 i).length + 6 := by
  have hdigits := length_toDigits_le hi
  have hname : (Bytes.ofText "data").length = 4 := by decide
  have hbytes : (Bytes.ofText s!"data{i}").length = (Nat.toDigits 10 i).length + 4 := by
    show (Bytes.ofText ("data" ++ toString i)).length = _
    rw [Bytes.ofText_append, List.length_append, hname, length_ofText_toString, Nat.add_comm]
  rw [Layout.payload, Layout.length_delimited (by rw [hbytes]; omega), hbytes]

/-- **The length of an event.** -/
theorem length_sample (hnow : now.Valid) (hi : i < maxCount) :
    (sample now i).canonicalEncoding.length = 55 + timeLength now + numberLength i := by
  have horder : (sample now i).InWritingOrder (sample now i).attributes :=
    ⟨.refl _, (by decide : ["sequence", "time"].Pairwise WrittenBefore).of_map Prod.fst
      fun _ _ h => h⟩
  have hfixed : (Layout.text 2 "/bench").length = 8 ∧ (Layout.text 3 "1.0").length = 5
      ∧ (Layout.text 4 "Bench").length = 7 :=
    ⟨Layout.length_delimited (by decide), Layout.length_delimited (by decide),
      Layout.length_delimited (by decide)⟩
  rw [horder.canonicalEncoding_eq (valid_sample hnow hi).names_nodup]
  show (Layout.text 1 (toString i) ++ Layout.text 2 "/bench" ++ Layout.text 3 "1.0"
    ++ Layout.text 4 "Bench"
    ++ (Layout.entry ("sequence", .integer i) ++ (Layout.entry ("time", .timestamp now) ++ []))
    ++ Layout.payload (.binary (Bytes.ofText s!"data{i}"))).length = _
  simp only [List.length_append, List.length_nil, length_id hi, hfixed, length_sequence hi,
    length_time hnow, length_data hi, numberLength]
  omega

/-- No event of the benchmark is long. -/
theorem length_sample_lt (hnow : now.Valid) (hi : i < maxCount) :
    (sample now i).canonicalEncoding.length < 128 := by
  have := timeLength_le hnow
  have := length_toDigits_le hi
  have := length_varint_le hi
  rw [length_sample hnow hi, numberLength]
  omega

/-! ### All events -/

variable {wall : Nat → Timestamp}

/-- The length of the numbers of so many events. -/
def numbersLength (n : Nat) : Nat := ∑ i ∈ Finset.range n, numberLength i

/-- The length of a batch of so many events, of which event `i` has the time `wall i`. -/
def totalLength (wall : Nat → Timestamp) (n : Nat) : Nat :=
  ∑ i ∈ Finset.range n, (57 + timeLength (wall i) + numberLength i)

theorem totalLength_succ (wall : Nat → Timestamp) (n : Nat) :
    totalLength wall (n + 1) = totalLength wall n + (57 + timeLength (wall n) + numberLength n) :=
  Finset.sum_range_succ _ n

theorem totalLength_mono {m n : Nat} (h : m ≤ n) : totalLength wall m ≤ totalLength wall n :=
  Finset.sum_le_sum_of_subset (Finset.range_subset_range.mpr h)

/-- **The length of a batch.** -/
theorem length_frames_samples (hwall : ∀ i, (wall i).Valid) (hn : n ≤ maxCount) :
    (frames ((samples wall n).map Event.canonicalEncoding)).length = totalLength wall n := by
  induction n with
  | zero => rfl
  | succ n ih =>
    have hlast : (frame (sample (wall n) n).canonicalEncoding).length
        = 57 + timeLength (wall n) + numberLength n := by
      rw [length_frame (length_sample_lt (hwall n) hn), length_sample (hwall n) hn]
      omega
    rw [samples_succ, List.map_append, frames, List.flatMap_append, ← frames, List.length_append,
      ih (Nat.le_of_succ_le hn), totalLength_succ]
    simp only [List.map_cons, List.map_nil, List.flatMap_singleton, hlast]

theorem numbersLength_succ (n : Nat) :
    numbersLength (n + 1) = numbersLength n + numberLength n := Finset.sum_range_succ numberLength n

theorem totalLength_le_of_timeLength_le {bound : Nat} (h : ∀ i, timeLength (wall i) ≤ bound)
    (n : Nat) : totalLength wall n ≤ n * (57 + bound) + numbersLength n := by
  induction n with
  | zero => exact Nat.zero_le _
  | succ n ih =>
    have htime := h n
    rw [totalLength_succ, numbersLength_succ, Nat.succ_mul]
    omega

theorem le_totalLength_of_le_timeLength {bound : Nat} (h : ∀ i, bound ≤ timeLength (wall i))
    (n : Nat) : n * (57 + bound) + numbersLength n ≤ totalLength wall n := by
  induction n with
  | zero =>
    rw [Nat.zero_mul, Nat.zero_add]
    exact Nat.le_refl _
  | succ n ih =>
    have htime := h n
    rw [totalLength_succ, numbersLength_succ, Nat.succ_mul]
    omega

/-! ### How many fit -/

/-- Numbers of `digits` digits whose varints have `bytes` bytes take up the same room. -/
theorem numberLength_eq {digits bytes : Nat} (hdigits : digits = 0 ∨ 10 ^ digits ≤ i)
    (hdigits' : i < 10 ^ (digits + 1)) (hbytes : bytes = 0 ∨ 128 ^ bytes ≤ i)
    (hbytes' : i < 128 ^ (bytes + 1)) : numberLength i = 2 * digits + bytes + 3 := by
  have hlength : (Nat.toDigits 10 i).length = digits + 1 := by
    have hle := (Nat.length_toDigits_le_iff (b := 10) (by decide) digits.succ_pos).mpr hdigits'
    rcases Nat.eq_zero_or_pos digits with rfl | hpos
    · have := Nat.length_toDigits_pos (b := 10) (n := i)
      omega
    · have hlow := hdigits.resolve_left (Nat.ne_of_gt hpos)
      have := mt (Nat.length_toDigits_le_iff (b := 10) (by decide) hpos).mp (Nat.not_lt.mpr hlow)
      omega
  have hvarint : (Varint.encode i).length = bytes + 1 := by
    rcases hbytes with rfl | hlow
    · exact Varint.length_encode_of_lt hbytes'
    · exact Varint.length_encode hlow hbytes'
  rw [numberLength, hlength, hvarint]
  omega

/-- The length of the numbers of a piece. -/
theorem numbersLength_piece {a b : Nat} (digits bytes : Nat) (hab : a ≤ b)
    (hdigits : digits = 0 ∨ 10 ^ digits ≤ a) (hdigits' : b ≤ 10 ^ (digits + 1))
    (hbytes : bytes = 0 ∨ 128 ^ bytes ≤ a) (hbytes' : b ≤ 128 ^ (bytes + 1)) :
    numbersLength b = numbersLength a + (b - a) * (2 * digits + bytes + 3) := by
  have hpiece : ∀ i ∈ Finset.Ico a b, numberLength i = 2 * digits + bytes + 3 := by
    intro i hi
    obtain ⟨hai, hib⟩ := Finset.mem_Ico.mp hi
    exact numberLength_eq (hdigits.imp_right (Nat.le_trans · hai)) (Nat.lt_of_lt_of_le hib hdigits')
      (hbytes.imp_right (Nat.le_trans · hai)) (Nat.lt_of_lt_of_le hib hbytes')
  rw [numbersLength, ← Finset.sum_range_add_sum_Ico numberLength hab,
    Finset.sum_const_nat hpiece, Nat.card_Ico, numbersLength]

/-- The length of the numbers up to one of six digits. -/
theorem numbersLength_eq (h : 100000 ≤ n) (h' : n ≤ 1000000) :
    numbersLength n = 1261268 + (n - 100000) * 15 := by
  have h10 : numbersLength 10 = 30 :=
    numbersLength_piece (a := 0) 0 0 (by decide) (by decide) (by decide) (by decide) (by decide)
  have h100 := numbersLength_piece (a := 10) (b := 100) 1 0
    (by decide) (by decide) (by decide) (by decide) (by decide)
  have h128 := numbersLength_piece (a := 100) (b := 128) 2 0
    (by decide) (by decide) (by decide) (by decide) (by decide)
  have h1000 := numbersLength_piece (a := 128) (b := 1000) 2 1
    (by decide) (by decide) (by decide) (by decide) (by decide)
  have h10000 := numbersLength_piece (a := 1000) (b := 10000) 3 1
    (by decide) (by decide) (by decide) (by decide) (by decide)
  have h16384 := numbersLength_piece (a := 10000) (b := 16384) 4 1
    (by decide) (by decide) (by decide) (by decide) (by decide)
  have h100000 := numbersLength_piece (a := 16384) (b := 100000) 4 2
    (by decide) (by decide) (by decide) (by decide) (by decide)
  have hlast := numbersLength_piece (a := 100000) (b := n) 5 2 h (by decide) h' (by decide)
    (Nat.le_trans h' (by decide))
  omega

/-- So many events fit under the default limit, whatever the clock says. -/
theorem totalLength_le (hwall : ∀ i, (wall i).Valid) (hn : n ≤ 756714) :
    totalLength wall n ≤ 67108864 := by
  have hlength := totalLength_le_of_timeLength_le (fun i => timeLength_le (hwall i)) 756714
  have hmono : totalLength wall n ≤ totalLength wall 756714 := totalLength_mono hn
  rw [numbersLength_eq (by decide) (by decide)] at hlength
  omega

/-- So many events do not fit, whatever the clock says. -/
theorem lt_totalLength (wall : Nat → Timestamp) (hn : 935384 ≤ n) :
    67108864 < totalLength wall n := by
  have htime : ∀ i, 0 ≤ timeLength (wall i) := fun _ => Nat.zero_le _
  have hlength := le_totalLength_of_le_timeLength htime 935384
  have hmono : totalLength wall 935384 ≤ totalLength wall n := totalLength_mono hn
  rw [numbersLength_eq (by decide) (by decide)] at hlength
  omega

end Benchmark

end CloudEvents
