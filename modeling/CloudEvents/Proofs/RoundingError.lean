import CloudEvents.Time.Rfc3339
import Mathlib.Algebra.Order.Field.Power
import Mathlib.Data.Rat.Floor
import Mathlib.Tactic.FieldSimp
import Mathlib.Tactic.Linarith
import Mathlib.Tactic.NormNum
import Mathlib.Tactic.Positivity

/-!
# Rounding errors

A fraction of a second is rounded three times on its way to nanoseconds: to the nearest binary64
number, again after it is multiplied by a billion, and to an integer. None of this shows in a
fraction of at most nine digits. What is exact is an integer, the first two roundings move it by
less than a millionth, and the third takes it back.

The bounds are absolute. The number nearest to one below `2 ^ e` is off by at most half of the last
of 53 places, which is `2 ^ (e - 54)`, and only the upper bound of the number enters, so a number
that is much smaller, zero included, needs no case of its own.

## Main results

* `roundHalfEven_eq_of_abs_sub_lt` — rounding to an integer takes back an error below one half
* `abs_nearestBinary64_sub_le` — the error of the nearest binary64 number
* `Rfc3339.nanosOf?_of_digits` — fractions of up to nine digits are read exactly
-/

namespace CloudEvents

/-! ### Integers -/

theorem abs_roundHalfEven_sub_le (x : ℚ) : |(roundHalfEven x : ℚ) - x| ≤ 1 / 2 := by
  have hfloor : (x.floor : ℚ) ≤ x := Int.floor_le x
  have hlt : x < x.floor + 1 := Int.lt_floor_add_one x
  simp only [roundHalfEven]
  rw [abs_le]
  split
  · rename_i h
    have hrest : x - x.floor ≤ 1 / 2 := h.elim le_of_lt fun h => le_of_eq h.1
    constructor <;> linarith
  · rename_i h
    have hrest : 1 / 2 ≤ x - x.floor := not_lt.mp fun hlt => h (.inl hlt)
    push_cast
    constructor <;> linarith

/-- An error of less than one half is taken back. -/
theorem roundHalfEven_eq_of_abs_sub_lt {x : ℚ} {n : Int} (h : |x - n| < 1 / 2) :
    roundHalfEven x = n := by
  have hround := abs_roundHalfEven_sub_le x
  have hclose : |((roundHalfEven x - n : Int) : ℚ)| < 1 := by
    rw [abs_le] at hround
    rw [abs_lt] at h
    rw [Int.cast_sub, abs_lt]
    constructor <;> linarith
  rw [← Int.cast_abs] at hclose
  have hzero : |roundHalfEven x - n| < 1 := by exact_mod_cast hclose
  exact sub_eq_zero.mp (Int.abs_lt_one_iff.mp hzero)

/-! ### Binary64 numbers -/

theorem ratAbs_eq_abs (x : ℚ) : x.abs = |x| := by
  rw [Rat.abs]
  split
  · rename_i h
    exact (abs_of_nonneg h).symm
  · rename_i h
    exact (abs_of_neg (not_le.mp h)).symm

/-- The exponent of a number does not exceed its size. -/
theorem two_zpow_binaryExponent_le {x : ℚ} (hx : x ≠ 0) : (2 : ℚ) ^ binaryExponent x ≤ |x| := by
  have hnum : (2 : ℚ) ^ (x.num.natAbs.log2 : Int) ≤ |(x.num : ℚ)| := by
    have hle := Nat.log2_self_le (Int.natAbs_ne_zero.mpr (Rat.num_ne_zero.mpr hx))
    rw [zpow_natCast, ← Int.cast_abs, ← Int.natCast_natAbs, Int.cast_natCast]
    exact_mod_cast hle
  have hden : (x.den : ℚ) < (2 : ℚ) ^ ((x.den.log2 : Int) + 1) := by
    have hlt : x.den < 2 ^ (x.den.log2 + 1) := Nat.lt_log2_self
    exact_mod_cast hlt
  have hpos : (0 : ℚ) < x.den := by exact_mod_cast x.den_pos
  have hquotient : |x| = |(x.num : ℚ)| / x.den := by
    conv_lhs => rw [← Rat.num_div_den x]
    rw [abs_div, abs_of_pos hpos]
  simp only [binaryExponent, ratAbs_eq_abs]
  split
  · -- the denominator is at most twice its power of two, so one less is always enough
    rw [hquotient, le_div_iff₀ hpos]
    calc (2 : ℚ) ^ ((x.num.natAbs.log2 : Int) - x.den.log2 - 1) * x.den
        ≤ 2 ^ ((x.num.natAbs.log2 : Int) - x.den.log2 - 1) * 2 ^ ((x.den.log2 : Int) + 1) :=
          mul_le_mul_of_nonneg_left hden.le (by positivity)
      _ = 2 ^ (x.num.natAbs.log2 : Int) := by
          rw [← zpow_add₀ two_ne_zero]
          congr 1
          omega
      _ ≤ |(x.num : ℚ)| := hnum
  · rename_i h
    exact not_lt.mp h

/-- **The error of the nearest binary64 number** to one below a power of two. -/
theorem abs_nearestBinary64_sub_le {x : ℚ} {e : Int} (hx : |x| < 2 ^ e) (hsmall : -1020 ≤ e)
    (hlarge : e ≤ 1000) :
    ∃ y, nearestBinary64 x = some y ∧ |y - x| ≤ 2 ^ (e - 54) := by
  by_cases hzero : x = 0
  · exact ⟨0, by rw [nearestBinary64, if_pos hzero], by rw [hzero, sub_zero, abs_zero]; positivity⟩
  let place := max (binaryExponent x - 52) (-1074)
  let y := (roundHalfEven (x / 2 ^ place) : ℚ) * 2 ^ place
  have hexponent : binaryExponent x < e :=
    (zpow_lt_zpow_iff_right₀ one_lt_two).mp (lt_of_le_of_lt (two_zpow_binaryExponent_le hzero) hx)
  have hplace : (2 : ℚ) ^ place ≤ 2 ^ (e - 53) :=
    zpow_le_zpow_right₀ one_le_two (by omega)
  have hunit : (0 : ℚ) < 2 ^ place := by positivity
  have herror : |y - x| ≤ 2 ^ (e - 54) := by
    have hscale : y - x = ((roundHalfEven (x / 2 ^ place) : ℚ) - x / 2 ^ place) * 2 ^ place := by
      rw [sub_mul, div_mul_cancel₀ x (ne_of_gt hunit)]
    have hhalf : (2 : ℚ) ^ (e - 54) = 1 / 2 * 2 ^ (e - 53) := by
      rw [show e - 54 = -1 + (e - 53) by omega, zpow_add₀ two_ne_zero]
      norm_num
    rw [hscale, abs_mul, abs_of_pos hunit, hhalf]
    exact mul_le_mul (abs_roundHalfEven_sub_le _) hplace hunit.le (by norm_num)
  have hfits : y.abs < 2 ^ (1024 : Int) := by
    have hmargin : (2 : ℚ) ^ (e - 54) ≤ 2 ^ e := zpow_le_zpow_right₀ one_le_two (by omega)
    have hdouble : (2 : ℚ) ^ (e + 1) = 2 ^ e + 2 ^ e := by
      rw [zpow_add₀ two_ne_zero, zpow_one, mul_two]
    have hlimit : (2 : ℚ) ^ (e + 1) ≤ 2 ^ (1024 : Int) :=
      zpow_le_zpow_right₀ one_le_two (by omega)
    have htriangle := abs_sub_abs_le_abs_sub y x
    rw [ratAbs_eq_abs]
    linarith
  refine ⟨y, ?_, herror⟩
  rw [nearestBinary64, if_neg hzero]
  exact if_pos hfits

/-! ### Fractions of a second -/

/-- The number that a fraction without an exponent writes. -/
theorem Text.Decimal.value_of_digits (digits : Nat) {scale : Nat} (hscale : scale ≤ 9) :
    ({ digits, scale, exponent := 0 } : Text.Decimal).value = digits / 10 ^ scale := by
  have hpower : max (-(400 + (digits.log2 : Int))) (min 400 (0 - (scale : Int))) = -scale := by
    omega
  rw [Text.Decimal.value, hpower]
  change ((digits : Int) : ℚ) * (10 : ℚ) ^ (-(scale : Int)) = _
  rw [zpow_neg, zpow_natCast, Int.cast_natCast, div_eq_mul_inv]

namespace Rfc3339

/-- **Fractions of up to nine digits are read exactly**, as if padded to nine. -/
theorem nanosOf?_of_digits {digits scale : Nat} (hscale : scale ≤ 9)
    (hdigits : digits < 10 ^ scale) :
    nanosOf? { digits, scale, exponent := 0 } = some ↑(digits * 10 ^ (9 - scale)) := by
  let x : ℚ := digits / 10 ^ scale
  have hpos : (0 : ℚ) < 10 ^ scale := by positivity
  have hnonneg : 0 ≤ x := by positivity
  have hlt : x < 1 := (div_lt_one hpos).mpr (by exact_mod_cast hdigits)
  have hexact : ((digits * 10 ^ (9 - scale) : Nat) : ℚ) = x * 1000000000 := by
    have hbillion : (1000000000 : ℚ) = 10 ^ (9 - scale) * 10 ^ scale := by
      rw [← pow_add, Nat.sub_add_cancel hscale]
      norm_num
    rw [hbillion]
    simp only [x]
    push_cast
    field_simp
  obtain ⟨seconds, hseconds, herror⟩ := abs_nearestBinary64_sub_le (x := x) (e := 0)
    (by rwa [zpow_zero, abs_of_nonneg hnonneg]) (by decide) (by decide)
  have herror' : |seconds * 1000000000 - x * 1000000000| ≤ 1 / 10000000 := by
    rw [← sub_mul, abs_mul]
    norm_num at herror ⊢
    linarith
  have hbelow : |seconds * 1000000000| < (2 : ℚ) ^ (30 : Int) := by
    have hbound := abs_le.mp herror'
    rw [abs_lt]
    norm_num
    constructor <;> linarith
  obtain ⟨nanos, hnanos, hlast⟩ := abs_nearestBinary64_sub_le hbelow (by decide) (by decide)
  have hclose : |nanos - ((digits * 10 ^ (9 - scale) : Nat) : Int)| < (1 / 2 : ℚ) := by
    have htriangle := abs_sub_le nanos (seconds * 1000000000) (x * 1000000000)
    rw [Int.cast_natCast, hexact]
    norm_num at hlast
    linarith
  rw [nanosOf?, Text.Decimal.value_of_digits digits hscale]
  refine Option.bind_eq_some_iff.mpr ⟨seconds, hseconds, ?_⟩
  refine Option.bind_eq_some_iff.mpr ⟨nanos, hnanos, ?_⟩
  exact congrArg some (roundHalfEven_eq_of_abs_sub_lt hclose)

end Rfc3339

end CloudEvents
