import CloudEvents.Number.Format
import CloudEvents.Program.Basic

/-!
# The benchmark

A program that sends many events through the codec, one by one and as a batch, and reports how long
that took. The wall clock is read once for each event. The stopwatch is read six times, before and
after each of encoding, decoding and the round trip of the batch. What came back is looked at after
the reading, so that looking takes no time.

## Main definitions

* `Benchmark.rate` — events for each second
* `Benchmark.event`, `Benchmark.events` — what is sent
* `Benchmark.program` — the program
-/

namespace CloudEvents.Benchmark

/-! ### Rates -/

/-- How many of `count` events there are for each second. Where no time passed the rate is zero. -/
def rate (count : Int) (seconds : Binary64) : Except Error Binary64 :=
  if seconds.isPositive then
    match Binary64.ofInt? count with
    | none => .error (.misuse .infiniteInteger)
    | some events =>
      match events.div? seconds with
      | none => .error (.misuse .divisionByZero)
      | some quotient => .ok quotient
  else .ok (.finite false 0)

/-! ### The program -/

section

variable {m : Type → Type} [Monad m] (s : Surroundings m)

/-- The event of a number, with the time at which it is built. -/
def event (i : Nat) : m Event := do
  let sequence ← s.step (AttributeValue.create .integer (.int i))
  let time ← s.step (AttributeValue.create .timestamp (.timestamp (← s.wall)))
  s.step (Event.create
    { id := some (.text (toString i))
      source := some (.text "/bench")
      specVersion := some (.text "1.0")
      type := some (.text "Bench")
      attributes := some (.ofFields
        [("sequence", .attributeValue sequence), ("time", .attributeValue time)])
      binaryData := some (.bytes (Bytes.ofText s!"data{i}")) })

/-- As many events as asked for, and none if the number is negative. -/
def events (count : Int) : m (List Event) := (List.range count.toNat).mapM (event s)

/-- The default codec serves all stages. -/
def codec : Codec := {}

/-- Something done between two readings of the stopwatch, and the seconds between them. -/
def timed {α : Type} (x : m α) : m (α × Binary64) := do
  let start ← s.stopwatch
  let result ← x
  let stop ← s.stopwatch
  return (result, stop.sub start)

/-- The first stage: each event as bytes of its own. -/
def encodeAll (sent : List Event) : m (List Bytes) := sent.mapM fun e => s.step (.encode codec e)

/-- The second stage: the bytes as events again. -/
def decodeAll (encoded : List Bytes) : m (List Event) :=
  encoded.mapM fun bytes => s.step (.decode codec bytes)

/-- The third stage: all events as one batch, and back. -/
def batchRoundTrip (sent : List Event) : m (Bytes × Batch) := do
  let wire ← s.step (.encodeBatch codec { events := sent })
  let restored ← s.step (.decodeBatch codec wire)
  return (wire, restored)

/-- What the program takes for granted of what came back. -/
def confirm (condition : Bool) : m Unit :=
  s.step (if condition then pure () else throw (.misuse .roundTripMismatch))

/-- The results, of which times are printed with four decimal places and rates as whole numbers. -/
def report (count : Int) (encodeTime decodeTime batchTime : Binary64) (size : Nat) : m Unit := do
  let time := Binary64.format (fixedPoint 4)
  let whole := Binary64.format groupedWhole
  let encodeRate ← s.step (rate count encodeTime)
  let decodeRate ← s.step (rate count decodeTime)
  let batchRate ← s.step (rate count batchTime)
  s.print s!"\n--- Results for {count} events ---"
  s.print s!"Encode: {time encodeTime}s ({whole encodeRate} events/s)"
  s.print s!"Decode: {time decodeTime}s ({whole decodeRate} events/s)"
  s.print (s!"Batch round trip: {time batchTime}s ({whole batchRate} events/s, "
    ++ s!"{grouped size} bytes)")

/-- The program. -/
def program (count : Int) : m Unit := do
  s.print s!"Benchmarking with {count} events..."
  let sent ← events s count
  let (encoded, encodeTime) ← timed s (encodeAll s sent)
  let (decoded, decodeTime) ← timed s (decodeAll s encoded)
  confirm s (Batch.same { events := decoded } { events := sent })
  let ((wire, restored), batchTime) ← timed s (batchRoundTrip s sent)
  confirm s (restored.length = count)
  report s count encodeTime decodeTime batchTime wire.length

end

end CloudEvents.Benchmark
