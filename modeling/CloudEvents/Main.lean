import CloudEvents.Program.Arguments
import CloudEvents.Program.Benchmark
import CloudEvents.Program.Demo
import Std.Time.DateTime.Timestamp

/-!
# The command line

`demo` runs the demonstration with its log on standard error; `benchmark` runs the benchmark with
the arguments that follow. This module runs the programs on the clocks of the machine, and does
nothing else.
-/

namespace CloudEvents.CommandLine

/-! ### Clocks -/

/-- What the wall clock says, to the microsecond. -/
def wallClock : IO Timestamp := do
  let now ← Std.Time.Timestamp.now
  let sinceEpoch := now.toDurationSinceUnixEpoch
  return { seconds := sinceEpoch.second.val, nanos := sinceEpoch.nano.val / 1000 * 1000 }

/-- The seconds on a clock that never goes back. -/
def stopwatch : IO Binary64 := do
  let nanoseconds : Rat := (← IO.monoNanosNow)
  return .ofRat false (nanoseconds / 1000000000)

/-! ### Programs -/

/-- The machine, with a place for the log. -/
def machine (emit : LogRecord → IO Unit) : Surroundings (ExceptT Error IO) where
  wall := wallClock
  stopwatch := stopwatch
  print line := IO.println line
  step p := do
    for record in p.log do
      emit record
    .mk (pure p.result)

/-- Runs a program, and tells the wording of its failure. -/
def runProgram (program : ExceptT Error IO Unit) : IO UInt32 := do
  match ← program.run with
  | .ok () => return 0
  | .error e =>
    IO.eprintln (e.message.getD "failed")
    return 1

/-- Everything is logged, with its level. -/
def logAll (record : LogRecord) : IO Unit :=
  IO.eprintln s!"{record.level.name}:root:{record.text}"

/-- Only warnings are logged. -/
def logWarnings (record : LogRecord) : IO Unit := do
  if record.level = .warning then IO.eprintln record.text

def usage : String := "usage: benchmark [-h] [--num-events NUM_EVENTS]"

/-- The benchmark that a command line asks for. -/
def runBenchmark (arguments : List String) : IO UInt32 := do
  match Arguments.request arguments with
  | .help =>
    IO.println usage
    return 0
  | .refused =>
    IO.eprintln usage
    return 2
  | .run count => runProgram (Benchmark.program (machine logWarnings) count)

/-- The program that the first argument names; the demonstration unless it is the benchmark. -/
def run (arguments : List String) : IO UInt32 := do
  match arguments with
  | "benchmark" :: rest => runBenchmark rest
  | _ => runProgram (Demo.program (machine logAll))

end CloudEvents.CommandLine

def main (arguments : List String) : IO UInt32 := CloudEvents.CommandLine.run arguments
