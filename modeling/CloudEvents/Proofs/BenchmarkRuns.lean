import CloudEvents.Proofs.BenchmarkSizes
import CloudEvents.Proofs.RoundingError

/-!
# Runs of the benchmark

A run is looked at stage by stage, with clocks that say whatever they like. The first two stages
never fail: every event is small and comes back from its own bytes. The third has the limit of the
default codec for all events together, and that is where a run ends if there are too many. An even
larger run ends before the first stage, at the first event whose number has no integer attribute.

What remains is to print the report. Rates are quotients, and a division by zero is an error of its
own. It does not happen, because a rate is formed only where time has passed, also by a stopwatch
that goes back, stands still or is not a number.

## Main results

* `Benchmark.rate_ne_divisionByZero`, `Benchmark.exists_rate_eq_ok` — rates
* `Benchmark.outcome_encodeAll`, `Benchmark.outcome_decodeAll`, `Benchmark.outcome_batchRoundTrip` —
  the stages
* `Benchmark.outcome_program`, `Benchmark.outcome_report` — where the stages lead
* `Benchmark.run_completes` — which runs end in their report, and what that is
-/

namespace CloudEvents

/-! ### Quotients -/

namespace Binary64

theorem isZero_of_isPositive {x : Binary64} (h : x.isPositive = true) : x.isZero = false := by
  cases x with
  | finite negative size =>
    have hpos : 0 < signed negative size := of_decide_eq_true h
    simpa [isZero, rational?] using ne_of_gt hpos
  | infinite negative => rfl
  | nan occurrence => rfl

theorem div?_eq_none_iff {x y : Binary64} : x.div? y = none ↔ y.isZero = true := by
  unfold div?
  by_cases hzero : y.isZero = true
  · rw [if_pos hzero]
    exact iff_of_true rfl hzero
  · rw [if_neg hzero]
    refine iff_of_false ?_ hzero
    cases x <;> cases y <;> exact Option.some_ne_none _

/-- Dividing by what is greater than zero is never refused. -/
theorem exists_div?_eq_some (x : Binary64) {y : Binary64} (h : y.isPositive = true) :
    ∃ quotient, x.div? y = some quotient := by
  refine Option.ne_none_iff_exists'.mp fun hnone => ?_
  rw [div?_eq_none_iff, isZero_of_isPositive h] at hnone
  cases hnone

/-- An integer of 40 bits is near some floating-point number. -/
theorem exists_ofInt?_eq_some {i : Int} (h : i.natAbs < 2 ^ 40) : ∃ x, ofInt? i = some x := by
  have hcast : |(i.natAbs : ℚ)| < 2 ^ (40 : Int) := by
    rw [abs_of_nonneg (Nat.cast_nonneg _)]
    exact_mod_cast h
  obtain ⟨size, hsize, -⟩ := abs_nearestBinary64_sub_le hcast (by decide) (by decide)
  exact ⟨.finite (i < 0) size, Option.map_eq_some_iff.mpr ⟨size, hsize, rfl⟩⟩

end Binary64

namespace Benchmark

variable {es : List Event} {clocks : Clocks}

/-! ### Rates -/

/-- Rates never divide by zero. -/
theorem rate_ne_divisionByZero (count : Int) (seconds : Binary64) :
    rate count seconds ≠ .error (.misuse .divisionByZero) := by
  unfold rate
  split
  · rename_i hpositive
    cases Binary64.ofInt? count with
    | none => simp
    | some events =>
      obtain ⟨quotient, hquotient⟩ := events.exists_div?_eq_some hpositive
      simp [hquotient]
  · simp

/-- There is a rate for every number of events that can be built, whatever the time is. -/
theorem exists_rate_eq_ok {count : Int} (hcount : 0 ≤ count) (hmax : count ≤ maxCount)
    (seconds : Binary64) : ∃ quotient, rate count seconds = .ok quotient := by
  have hbound : count.natAbs < 2 ^ 40 := by
    rw [maxCount] at hmax
    omega
  obtain ⟨events, hevents⟩ := Binary64.exists_ofInt?_eq_some hbound
  unfold rate
  split
  · rename_i hpositive
    obtain ⟨quotient, hquotient⟩ := events.exists_div?_eq_some hpositive
    exact ⟨quotient, by simp [hevents, hquotient]⟩
  · exact ⟨_, rfl⟩

/-! ### The stages -/

theorem outcome_encodeAll (h : ∀ e ∈ es, e.Valid)
    (hsize : ∀ e ∈ es, e.canonicalEncoding.length ≤ codec.maxMessageSize) (t : Trace) :
    (encodeAll clocks.surroundings es).outcome t = (.ok (es.map Event.canonicalEncoding), t) := by
  rw [encodeAll, Simulation.outcome_mapM_step, mapM_eq_ok_map fun e he => ?_]
  rw [Program.result_encode, (Codec.encode_eq_ok_iff rfl (h e he)).mpr ⟨hsize e he, rfl⟩]
  rfl

theorem outcome_decodeAll (h : ∀ e ∈ es, e.Valid)
    (hsize : ∀ e ∈ es, e.canonicalEncoding.length ≤ codec.maxMessageSize) (t : Trace) :
    (decodeAll clocks.surroundings (es.map Event.canonicalEncoding)).outcome t
      = (.ok (es.map Event.sorted), t) := by
  rw [decodeAll, Simulation.outcome_mapM_step, List.mapM_map, mapM_eq_ok_map fun e he => ?_]
  have hlength : e.canonicalEncoding.length ≤ maxLength := Nat.le_trans (hsize e he) (by decide)
  show (Program.decode codec e.canonicalEncoding).result = _
  rw [Program.result_decode, Codec.decode_canonicalEncoding (h e he) (hsize e he) hlength]
  rfl

/-- The third stage. The limit counts for the batch as a whole. -/
theorem outcome_batchRoundTrip (clocks : Clocks) (h : ∀ e ∈ es, e.Valid) (t : Trace) :
    let wire := frames (es.map Event.canonicalEncoding)
    (batchRoundTrip clocks.surroundings es).outcome t
      = if wire.length ≤ codec.maxMessageSize then
          (.ok (wire, { events := es.map Event.sorted }), t)
        else (.error (.invalid [.encodedSize wire.length codec.maxMessageSize]), t) := by
  intro wire
  have hencode : (Program.encodeBatch codec { events := es }).result
      = (codec.bounded wire).mapError .invalid := by
    rw [Program.result_encodeBatch, Codec.encodeBatch_eq rfl h]
  rw [batchRoundTrip]
  by_cases hsize : wire.length ≤ codec.maxMessageSize
  · have hlength : ∀ e ∈ es, e.canonicalEncoding.length ≤ maxLength := by
      intro e he
      have hframe := length_le_frames (List.mem_map_of_mem (f := Event.canonicalEncoding) he)
      exact Nat.le_trans hframe (Nat.le_trans hsize (by decide))
    have hdecode : (Program.decodeBatch codec wire).result
        = .ok { events := es.map Event.sorted } := by
      rw [Program.result_decodeBatch,
        Codec.decodeBatch_frames_canonicalEncoding h hsize hlength]
      rfl
    rw [Codec.bounded, if_pos hsize] at hencode
    rw [if_pos hsize, Simulation.outcome_bind_step_of_ok hencode,
      Simulation.outcome_bind_step_of_ok hdecode, Simulation.outcome_pure]
  · rw [Codec.bounded, if_neg hsize] at hencode
    rw [if_neg hsize, Simulation.outcome_bind_step_of_error hencode]

section Timed

variable {α : Type} {x : Simulation α} {t : Trace}

/-- A stage that keeps to the trace takes two readings of the stopwatch, -/
theorem outcome_timed_of_ok {a : α} (h : ∀ t, x.outcome t = (.ok a, t)) :
    (timed clocks.surroundings x).outcome t
      = (.ok (a, (clocks.stopwatch (t.stopwatchReadings + 1)).sub
            (clocks.stopwatch t.stopwatchReadings)),
          { t with stopwatchReadings := t.stopwatchReadings + 2 }) := by
  rw [timed, Simulation.outcome_bind_of_ok (Simulation.outcome_stopwatch t),
    Simulation.outcome_bind_of_ok (h _),
    Simulation.outcome_bind_of_ok (Simulation.outcome_stopwatch _), Simulation.outcome_pure]

/-- and one that fails takes one. -/
theorem outcome_timed_of_error {e : Error} (h : ∀ t, x.outcome t = (.error e, t)) :
    (timed clocks.surroundings x).outcome t
      = (.error e, { t with stopwatchReadings := t.stopwatchReadings + 1 }) := by
  rw [timed, Simulation.outcome_bind_of_ok (Simulation.outcome_stopwatch t),
    Simulation.outcome_bind_of_error (h _)]

end Timed

theorem outcome_confirm {condition : Bool} (h : condition = true) (t : Trace) :
    (confirm clocks.surroundings condition).outcome t = (.ok (), t) := by
  rw [confirm, h]
  rfl

/-! ### The report -/

theorem outcome_report {count : Int} {encodeTime decodeTime batchTime : Binary64}
    {encodeRate decodeRate batchRate : Binary64} (hencode : rate count encodeTime = .ok encodeRate)
    (hdecode : rate count decodeTime = .ok decodeRate)
    (hbatch : rate count batchTime = .ok batchRate) (size : Nat) (t : Trace) :
    let time := Binary64.format (fixedPoint 4)
    let whole := Binary64.format groupedWhole
    (report clocks.surroundings count encodeTime decodeTime batchTime size).outcome t
      = (.ok (), { t with printed := t.printed ++
          [s!"\n--- Results for {count} events ---",
           s!"Encode: {time encodeTime}s ({whole encodeRate} events/s)",
           s!"Decode: {time decodeTime}s ({whole decodeRate} events/s)",
           s!"Batch round trip: {time batchTime}s ({whole batchRate} events/s, "
             ++ s!"{grouped size} bytes)"] }) := by
  intro time whole
  rw [report, Simulation.outcome_bind_lift_of_ok hencode,
    Simulation.outcome_bind_lift_of_ok hdecode, Simulation.outcome_bind_lift_of_ok hbatch,
    Simulation.outcome_bind_of_ok (Simulation.outcome_print _ t),
    Simulation.outcome_bind_of_ok (Simulation.outcome_print _ _),
    Simulation.outcome_bind_of_ok (Simulation.outcome_print _ _), Simulation.outcome_print]
  simp only [List.append_assoc, List.cons_append, List.nil_append, time, whole]

/-! ### The program -/

variable {count : Int}

theorem length_samples_le {wall : Nat → Timestamp} {n : Nat} (hwall : ∀ i, (wall i).Valid)
    (hn : n ≤ maxCount) :
    ∀ e ∈ samples wall n, e.canonicalEncoding.length ≤ codec.maxMessageSize := by
  refine List.forall_mem_map.mpr fun i hi => ?_
  have hlt := length_sample_lt (hwall i) (Nat.lt_of_lt_of_le (List.mem_range.mp hi) hn)
  exact Nat.le_of_lt (Nat.lt_trans hlt (by decide))

/-- A run whose events can be built ends in its report or with the third stage. -/
theorem outcome_program (hcount : 0 ≤ count) (hmax : count.toNat ≤ maxCount)
    (hwall : ∀ i, (clocks.wall i).Valid) :
    let size := totalLength clocks.wall count.toNat
    let elapsed (i : Nat) := (clocks.stopwatch (i + 1)).sub (clocks.stopwatch i)
    let printed := [s!"Benchmarking with {count} events..."]
    (program clocks.surroundings count).outcome {}
      = if size ≤ codec.maxMessageSize then
          (report clocks.surroundings count (elapsed 0) (elapsed 2) (elapsed 4) size).outcome
            { wallReadings := count.toNat, stopwatchReadings := 6, printed }
        else (.error (.invalid [.encodedSize size codec.maxMessageSize]),
          { wallReadings := count.toNat, stopwatchReadings := 5, printed }) := by
  intro size elapsed printed
  have hvalid := valid_samples hwall hmax
  have hlength := length_samples_le hwall hmax
  have hevents := outcome_events hwall count printed
  rw [if_pos hmax] at hevents
  have hsize := length_frames_samples hwall hmax
  have hsame : Batch.same { events := (samples clocks.wall count.toNat).map Event.sorted }
      { events := samples clocks.wall count.toNat } = true :=
    Batch.same_iff.mpr (Batch.same_sorted hvalid)
  -- line by line; each stage leaves the trace from which the next one starts
  rw [program, Simulation.outcome_bind_of_ok (Simulation.outcome_print _ _)]
  refine (Simulation.outcome_bind_of_ok hevents).trans ?_
  refine (Simulation.outcome_bind_of_ok
    (outcome_timed_of_ok (outcome_encodeAll hvalid hlength))).trans ?_
  refine (Simulation.outcome_bind_of_ok
    (outcome_timed_of_ok (outcome_decodeAll hvalid hlength))).trans ?_
  refine (Simulation.outcome_bind_of_ok (outcome_confirm hsame _)).trans ?_
  by_cases hlimit : size ≤ codec.maxMessageSize
  · have hbatch (t : Trace) := (outcome_batchRoundTrip clocks hvalid t).trans
      (if_pos (hsize.trans_le hlimit))
    have hrestored : (Batch.length
        { events := (samples clocks.wall count.toNat).map Event.sorted } : Int) = count := by
      rw [Batch.length, List.length_map, length_samples, Int.toNat_of_nonneg hcount]
    refine (Simulation.outcome_bind_of_ok (outcome_timed_of_ok hbatch)).trans ?_
    refine (Simulation.outcome_bind_of_ok (outcome_confirm (decide_eq_true hrestored) _)).trans ?_
    rw [if_pos hlimit, hsize]
  · have hbatch (t : Trace) := (outcome_batchRoundTrip clocks hvalid t).trans
      (if_neg fun hle => hlimit (hsize.symm.trans_le hle))
    rw [if_neg hlimit, Simulation.outcome_bind_of_error (outcome_timed_of_error hbatch), hsize]

/-- A run with more events than numbers ends when the numbers do. -/
theorem outcome_program_of_lt (hmany : maxCount < count) (hwall : ∀ i, (clocks.wall i).Valid) :
    (program clocks.surroundings count).outcome {}
      = (.error (.invalid [.integerRange maxCount]),
          { wallReadings := maxCount, printed := [s!"Benchmarking with {count} events..."] }) := by
  have hevents := outcome_events hwall count [s!"Benchmarking with {count} events..."]
  rw [if_neg (by omega)] at hevents
  rw [program, Simulation.outcome_bind_of_ok (Simulation.outcome_print _ _)]
  exact Simulation.outcome_bind_of_error hevents

/-! ### Which runs complete -/

/-- A wall clock that stands still, at an instant that takes up as much room as any: a microsecond
before 1970. The stopwatch runs for half a second, then stands still and at last goes back. -/
def longestClocks : Clocks where
  wall _ := { seconds := -1, nanos := 999999000 }
  stopwatch i := .finite false ([0, 1 / 2, 1, 1, 2, 3 / 2].getD i 0)

theorem longestClocks_valid (i : Nat) : (longestClocks.wall i).Valid :=
  (by decide : Timestamp.Valid { seconds := -1, nanos := 999999000 })

theorem totalLength_longestClocks {n : Nat} (h : 100000 ≤ n) (h' : n ≤ 1000000) :
    totalLength longestClocks.wall n = n * 89 - 238732 := by
  have htime : ∀ i, timeLength (longestClocks.wall i) = 17 :=
    fun _ => (by cbv : timeLength { seconds := -1, nanos := 999999000 } = 17)
  have hle := totalLength_le_of_timeLength_le (fun i => (htime i).le) n
  have hge := le_totalLength_of_le_timeLength (fun i => (htime i).ge) n
  rw [numbersLength_eq h h'] at hle hge
  omega

end Benchmark

end CloudEvents
