import CloudEvents.Program.Benchmark
import CloudEvents.Proofs.LooseArguments
import CloudEvents.Proofs.Simulations
import CloudEvents.Proofs.Updates

/-!
# The events of the benchmark

The benchmark numbers its events and carries the number three times: in the identifier, in the
payload and in an integer attribute. Texts and bytes hold any number, but an integer attribute has
32 bits, so the first number that cannot be carried is `2147483648`, and events are built for all
numbers below it. Nothing else about an event can fail, as long as the clock names an instant.

The wall clock is read for each event by itself, so that event `i` has reading `i`, and the number
of readings tells how far a run came that ended here.

## Main definitions

* `Benchmark.sample` — the event of a number and a time
* `Benchmark.maxCount` — as many events as there are numbers that an integer attribute holds
* `Benchmark.samples` — the events of a run

## Main results

* `Benchmark.outcome_event` — when the event of a number is built
* `Benchmark.outcome_events` — when all are
-/

namespace CloudEvents.Benchmark

/-- The event of a number at a time, as it is sent. -/
def sample (now : Timestamp) (i : Nat) : Event where
  id := toString i
  source := "/bench"
  specVersion := "1.0"
  type := "Bench"
  attributes := [("sequence", .integer i), ("time", .timestamp now)]
  data := some (.binary (Bytes.ofText s!"data{i}"))

/-- The numbers from zero on that fit an integer attribute. -/
def maxCount : Nat := 2147483648

variable {now : Timestamp} {i : Nat}

/-! ### One event -/

theorem integer_valid_iff : (AttributeValue.integer i : AttributeValue).Valid ↔ i < maxCount := by
  simp only [AttributeValue.Valid, AttributeValue.minInteger, AttributeValue.maxInteger, maxCount]
  omega

theorem toString_ne_empty (i : Nat) : toString i ≠ "" := Nat.repr_ne_empty

theorem valid_sample (hnow : now.Valid) (hi : i < maxCount) : (sample now i).Valid where
  required_ne_empty f := by
    cases f with
    | id => exact toString_ne_empty i
    | source => exact (by decide : "/bench" ≠ "")
    | specVersion => exact (by decide : "1.0" ≠ "")
    | type => exact (by decide : "Bench" ≠ "")
  names_nodup := (by decide : ["sequence", "time"].Nodup)
  name_ne_empty := (by decide : ∀ name ∈ ["sequence", "time"], name ≠ "")
  name_not_reserved := (by decide : ∀ name ∈ ["sequence", "time"], name ∉ reservedNames)
  value_valid := by
    refine List.forall_mem_cons.mpr ⟨integer_valid_iff.mpr hi, List.forall_mem_singleton.mpr ?_⟩
    exact hnow

theorem create_sequence (i : Nat) :
    AttributeValue.create .integer (.int i)
      = if i < maxCount then .ok (.integer i) else .error (.invalid [.integerRange i]) := by
  show ((AttributeValue.integer i).check).mapError Error.invalid = _
  by_cases hi : i < maxCount
  · rw [if_pos hi, AttributeValue.check_eq_ok_iff.mpr ⟨integer_valid_iff.mpr hi, rfl⟩]
    rfl
  · have hrange : ¬ (AttributeValue.minInteger ≤ (i : Int)
        ∧ (i : Int) ≤ AttributeValue.maxInteger) := fun h => hi (integer_valid_iff.mp h)
    rw [if_neg hi, AttributeValue.check, AttributeValue.violations, if_neg hrange]
    rfl

theorem create_time (hnow : now.Valid) :
    AttributeValue.create .timestamp (.timestamp now) = .ok (.timestamp now) := by
  show ((AttributeValue.timestamp now).check).mapError Error.invalid = _
  rw [AttributeValue.check_eq_ok_iff (v := .timestamp now).mpr ⟨hnow, rfl⟩]
  rfl

/-- The arguments from which the event of a number is made. -/
def arguments (now : Timestamp) (i : Nat) : EventArguments where
  id := some (.text (toString i))
  source := some (.text "/bench")
  specVersion := some (.text "1.0")
  type := some (.text "Bench")
  attributes := some (.ofFields
    [("sequence", .attributeValue (.integer i)), ("time", .attributeValue (.timestamp now))])
  binaryData := some (.bytes (Bytes.ofText s!"data{i}"))

theorem offers_sample (now : Timestamp) (i : Nat) : (arguments now i).Offers (sample now i) where
  required f := by
    cases f <;> exact ⟨_, rfl, rfl⟩
  attributes := .inr ⟨_, rfl, .cons ⟨rfl, rfl⟩ (.cons ⟨rfl, rfl⟩ .nil)⟩
  names_nodup := (by decide : ["sequence", "time"].Nodup)

theorem create_arguments (hnow : now.Valid) (hi : i < maxCount) :
    Event.create (arguments now i) = .ok (sample now i) := by
  rw [Event.create_eq (offers_sample now i)]
  show ((sample now i).check).mapError Error.invalid = _
  rw [Event.check_of_valid (valid_sample hnow hi)]
  rfl

variable {clocks : Clocks} {t : Trace}

/-- **The event of a number** is built at the next reading of the wall clock, unless the number does
not fit 32 bits. That is reported without a look at the clock. -/
theorem outcome_event (hwall : ∀ i, (clocks.wall i).Valid) (i : Nat) (t : Trace) :
    (event clocks.surroundings i).outcome t
      = if i < maxCount then
          (.ok (sample (clocks.wall t.wallReadings) i),
            { t with wallReadings := t.wallReadings + 1 })
        else (.error (.invalid [.integerRange i]), t) := by
  rw [event]
  by_cases hi : i < maxCount
  · have hsequence : AttributeValue.create .integer (.int i) = .ok (.integer i) := by
      rw [create_sequence, if_pos hi]
    rw [if_pos hi, Simulation.outcome_bind_lift_of_ok hsequence,
      Simulation.outcome_bind_of_ok (Simulation.outcome_wall t),
      Simulation.outcome_bind_lift_of_ok (create_time (hwall _)), ← create_arguments (hwall _) hi]
    rfl
  · have hsequence : AttributeValue.create .integer (.int i)
        = .error (.invalid [.integerRange i]) := by
      rw [create_sequence, if_neg hi]
    rw [if_neg hi, Simulation.outcome_bind_lift_of_error hsequence]

/-! ### All events -/

/-- The events of so many numbers, each with its reading of the clock. -/
def samples (wall : Nat → Timestamp) (n : Nat) : List Event :=
  (List.range n).map fun i => sample (wall i) i

theorem samples_succ (wall : Nat → Timestamp) (n : Nat) :
    samples wall (n + 1) = samples wall n ++ [sample (wall n) n] := by
  rw [samples, List.range_succ, List.map_append]
  rfl

theorem length_samples (wall : Nat → Timestamp) (n : Nat) : (samples wall n).length = n := by
  rw [samples, List.length_map, List.length_range]

theorem valid_samples {wall : Nat → Timestamp} (hwall : ∀ i, (wall i).Valid) {n : Nat}
    (hn : n ≤ maxCount) : ∀ e ∈ samples wall n, e.Valid :=
  List.forall_mem_map.mpr fun i hi =>
    valid_sample (hwall i) (Nat.lt_of_lt_of_le (List.mem_range.mp hi) hn)

variable {printed : List String}

theorem outcome_mapM_event (hwall : ∀ i, (clocks.wall i).Valid) {n : Nat} (hn : n ≤ maxCount) :
    ((List.range n).mapM (event clocks.surroundings)).outcome { printed }
      = (.ok (samples clocks.wall n), { wallReadings := n, printed }) := by
  induction n with
  | zero => rfl
  | succ n ih =>
    have hlast : (event clocks.surroundings n).outcome { wallReadings := n, printed }
        = (.ok (sample (clocks.wall n) n), { wallReadings := n + 1, printed }) := by
      rw [outcome_event hwall, if_pos (Nat.lt_of_succ_le hn)]
    rw [List.range_succ, List.mapM_append,
      Simulation.outcome_bind_of_ok (ih (Nat.le_of_succ_le hn)),
      List.mapM_cons, bind_assoc, Simulation.outcome_bind_of_ok hlast, samples_succ]
    rfl

/-- **All events** are built unless there are more than an integer attribute can number. Then the
first number that does not fit ends the construction. -/
theorem outcome_events (hwall : ∀ i, (clocks.wall i).Valid) (count : Int)
    (printed : List String) :
    (events clocks.surroundings count).outcome { printed }
      = if count.toNat ≤ maxCount then
          (.ok (samples clocks.wall count.toNat), { wallReadings := count.toNat, printed })
        else
          (.error (.invalid [.integerRange maxCount]), { wallReadings := maxCount, printed }) := by
  rw [events]
  by_cases hcount : count.toNat ≤ maxCount
  · rw [if_pos hcount]
    exact outcome_mapM_event hwall hcount
  · obtain ⟨more, hmore⟩ : ∃ more, count.toNat = maxCount + (more + 1) :=
      ⟨count.toNat - maxCount - 1, by omega⟩
    have hfail : (event clocks.surroundings maxCount).outcome { wallReadings := maxCount, printed }
        = (.error (.invalid [.integerRange maxCount]), { wallReadings := maxCount, printed }) := by
      rw [outcome_event hwall, if_neg (Nat.lt_irrefl _)]
    rw [if_neg hcount, hmore, List.range_add, List.mapM_append,
      Simulation.outcome_bind_of_ok (outcome_mapM_event hwall (Nat.le_refl _)),
      List.range_succ_eq_map, List.map_cons, List.mapM_cons, Nat.add_zero, bind_assoc,
      Simulation.outcome_bind_of_error hfail]

end CloudEvents.Benchmark
