import CloudEvents.Bytes

/-!
# Variable-length integers

A number is written in base 128, the lowest seven bits first, and every byte but the last has its
high bit set. `Varint.encode` writes the fewest bytes. `Varint.read` is permissive: it accepts
padded forms as long as they stay within a number of bytes that the caller sets, because the wire
format bounds the length of a varint and not its shape.

Values are natural numbers without a bound. Each use of a varint keeps as many low bits as its
field holds, so nothing is lost by reading first and narrowing later.

## Main results

* `Varint.read_encode` — an encoding in front of any bytes is read back
* `Varint.length_lt_of_read` — reading consumes at least one byte
* `Varint.exists_front_of_read` — reading stops by itself
-/

namespace CloudEvents.Varint

/-- The shortest varint of a number. -/
def encode (n : Nat) : Bytes :=
  if n < 128 then [UInt8.ofNat n] else UInt8.ofNat (n % 128 + 128) :: encode (n / 128)
termination_by n
decreasing_by omega

/-- Reads a varint of at most `limit` bytes and returns the bytes after it. -/
def read : (limit : Nat) → Bytes → Option (Nat × Bytes)
  | 0, _ => none
  | _ + 1, [] => none
  | limit + 1, b :: rest =>
    if b.toNat < 128 then some (b.toNat, rest)
    else (read limit rest).map fun (high, rest) => (b.toNat - 128 + 128 * high, rest)

/-! ### Reading what was written -/

private theorem toNat_ofNat {n : Nat} (h : n < 256) : (UInt8.ofNat n).toNat = n := by
  rw [UInt8.toNat_ofNat']
  exact Nat.mod_eq_of_lt h

/-- A varint of a number below `128 ^ limit` is read back within `limit` bytes. -/
theorem read_encode {limit n : Nat} (h : n < Nat.pow 128 limit) (hl : 0 < limit) (rest : Bytes) :
    read limit (encode n ++ rest) = some (n, rest) := by
  induction limit generalizing n with
  | zero => omega
  | succ limit ih =>
    rw [encode]
    split
    · rename_i small
      simp [read, toNat_ofNat (show n < 256 by omega), small]
    · rename_i big
      have hpos : 0 < limit := by
        rcases Nat.eq_zero_or_pos limit with rfl | hpos
        · simp at h
          omega
        · exact hpos
      have hdiv : n / 128 < Nat.pow 128 limit := by
        refine Nat.div_lt_of_lt_mul ?_
        rwa [Nat.mul_comm]
      simp only [List.cons_append, read, toNat_ofNat (show n % 128 + 128 < 256 by omega),
        ih hdiv hpos, Option.map_some]
      rw [if_neg (by omega)]
      simp only [Option.some.injEq, Prod.mk.injEq, and_true]
      omega

/-! ### Progress and framing -/

/-- Reading consumes at least one byte. -/
theorem length_lt_of_read {limit n : Nat} {s rest : Bytes} (h : read limit s = some (n, rest)) :
    rest.length < s.length := by
  induction limit generalizing n s with
  | zero => cases s <;> simp [read] at h
  | succ limit ih =>
    cases s with
    | nil => simp [read] at h
    | cons b tail =>
      simp only [read] at h
      split at h
      · cases h
        simp
      · obtain ⟨⟨high, rest'⟩, hr, he⟩ := Option.map_eq_some_iff.1 h
        cases he
        exact Nat.lt_succ_of_lt (ih hr)

/-- A varint ends by itself: what is read of it is a front of the bytes, and the bytes behind are
left over and change nothing. -/
theorem exists_front_of_read {limit n : Nat} {s rest : Bytes} (h : read limit s = some (n, rest)) :
    ∃ front, s = front ++ rest ∧ ∀ more, read limit (front ++ more) = some (n, more) := by
  induction limit generalizing n s with
  | zero => cases s <;> simp [read] at h
  | succ limit ih =>
    cases s with
    | nil => simp [read] at h
    | cons b tail =>
      simp only [read] at h
      split at h
      · rename_i small
        cases h
        exact ⟨[b], rfl, fun more => by simp [read, small]⟩
      · rename_i big
        obtain ⟨⟨high, rest'⟩, hr, he⟩ := Option.map_eq_some_iff.1 h
        cases he
        obtain ⟨front, rfl, hfront⟩ := ih hr
        exact ⟨b :: front, rfl, fun more => by simp [read, big, hfront]⟩

end CloudEvents.Varint
