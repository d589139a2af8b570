import CloudEvents.Violation

/-!
# Timestamps

A timestamp is a UTC instant with nanosecond precision: whole seconds since 1970-01-01T00:00:00Z,
rounded down, and the nanoseconds after them. Years 1 to 9999 can be written.

The structure holds any two integers, because the wire format does: a message may carry seconds and
nanoseconds that name no instant, and it is the check that refuses them. `Timestamp.Valid` is what
the check establishes.

## Main results

* `Timestamp.check_eq_ok_iff` — the check accepts exactly the valid timestamps, unchanged
-/

namespace CloudEvents

/-- Seconds since the epoch and nanoseconds after them. -/
structure Timestamp where
  seconds : Int
  nanos : Int := 0
  deriving DecidableEq

namespace Timestamp

/-- The first second of year 1. -/
def minSeconds : Int := -62135596800

/-- The last second of year 9999. -/
def maxSeconds : Int := 253402300799

def nanosPerSecond : Int := 1000000000

/-- Years 1 to 9999, and less than a second of nanoseconds. -/
structure Valid (t : Timestamp) : Prop where
  minSeconds_le : minSeconds ≤ t.seconds
  le_maxSeconds : t.seconds ≤ maxSeconds
  nanos_nonneg : 0 ≤ t.nanos
  nanos_lt : t.nanos < nanosPerSecond

/-- The rules that the two numbers break, seconds first. -/
def violations (t : Timestamp) : List Violation :=
  (if minSeconds ≤ t.seconds ∧ t.seconds ≤ maxSeconds then [] else [.secondsRange t.seconds])
    ++ if 0 ≤ t.nanos ∧ t.nanos < nanosPerSecond then [] else [.nanosRange t.nanos]

theorem violations_eq_nil_iff {t : Timestamp} : t.violations = [] ↔ t.Valid := by
  constructor
  · intro h
    simp only [violations, List.append_eq_nil_iff, ite_eq_left_iff] at h
    simp at h
    exact ⟨h.1.1, h.1.2, h.2.1, h.2.2⟩
  · intro h
    simp [violations, h.minSeconds_le, h.le_maxSeconds, h.nanos_nonneg, h.nanos_lt]

instance (t : Timestamp) : Decidable t.Valid := decidable_of_iff _ violations_eq_nil_iff

/-- The timestamp itself, or the rules it breaks. -/
def check (t : Timestamp) : Except (List Violation) Timestamp := Violation.accept t t.violations

theorem check_eq_ok_iff {t u : Timestamp} : t.check = .ok u ↔ t.Valid ∧ t = u := by
  rw [check, Violation.accept_eq_ok_iff, violations_eq_nil_iff]

end Timestamp

end CloudEvents
