import CloudEvents.Candidate.Calls

/-!
# Programs

The programs of this library read clocks, call its codec step by step, print lines as they go, and
end at the first failure. A program is written once, for any monad that offers these four things
(`Surroundings`). The command line runs it on the clocks of the machine. A simulation runs it on
clocks that are functions: the value of a clock at `i` is what reading `i` of it returns, and what
the run left behind is a value as well.

## Main definitions

* `Program` — steps that may fail and are logged
* `Program.encode`, `Program.decode`, `Program.encodeBatch`, `Program.decodeBatch`
* `Surroundings` — clocks, printing and steps in some monad
* `Clocks`, `Trace`, `Simulation` — the monad of simulated runs
-/

namespace CloudEvents

/-! ### Steps -/

/-- Steps that end at the first failure and keep the log of all that were taken. -/
abbrev Program := ExceptT Error Logged

namespace Program

variable {α : Type}

/-- The outcome of a program, without its log. -/
def result (p : Program α) : Except Error α := p.run.result

/-- The log of a program, also of one that failed. -/
def log (p : Program α) : List LogRecord := p.run.log

def encode (c : Codec) (e : Event) : Program Bytes :=
  .mk ((c.encodeLogged e).map (·.mapError .invalid))

def decode (c : Codec) (bytes : Bytes) : Program Event :=
  .mk ((c.decodeLogged bytes).map (·.mapError .decode))

def encodeBatch (c : Codec) (b : Batch) : Program Bytes :=
  .mk ((c.encodeBatchLogged b).map (·.mapError .invalid))

def decodeBatch (c : Codec) (bytes : Bytes) : Program Batch :=
  .mk ((c.decodeBatchLogged bytes).map (·.mapError .decode))

end Program

/-! ### Surroundings -/

/-- What a program needs of the monad that runs it. -/
structure Surroundings (m : Type → Type) where
  /-- Reads the wall clock. -/
  wall : m Timestamp
  /-- Reads the stopwatch, in seconds from some start. -/
  stopwatch : m Binary64
  /-- Prints a line. -/
  print : String → m Unit
  /-- Takes a step, and ends the run if it fails. -/
  step : {α : Type} → Program α → m α

/-! ### Simulation -/

/-- What each reading of the two clocks returns. -/
structure Clocks where
  wall : Nat → Timestamp
  stopwatch : Nat → Binary64

/-- How often the clocks were read, and what was printed. -/
structure Trace where
  wallReadings : Nat := 0
  stopwatchReadings : Nat := 0
  printed : List String := []
  deriving DecidableEq

/-- A run that is simulated. One that fails has a trace too. -/
abbrev Simulation := ExceptT Error (StateT Trace Logged)

def Clocks.surroundings (clocks : Clocks) : Surroundings Simulation where
  wall := modifyGet fun t =>
    (clocks.wall t.wallReadings, { t with wallReadings := t.wallReadings + 1 })
  stopwatch := modifyGet fun t =>
    (clocks.stopwatch t.stopwatchReadings, { t with stopwatchReadings := t.stopwatchReadings + 1 })
  print line := modify fun t => { t with printed := t.printed ++ [line] }
  step p := .mk (StateT.lift p.run)

namespace Simulation

variable {α : Type}

/-- How a run ends that starts with a trace. -/
def outcome (s : Simulation α) (t : Trace) : Except Error α × Trace := (s.run.run t).result

end Simulation

end CloudEvents
