/-!
# Log records

Calls of a codec report what they did. A logged call returns its result beside the records it
emitted, in order, and the caller sends them wherever it likes. Calls that follow one another are
logged one after the other.
-/

namespace CloudEvents

inductive LogLevel where
  | debug
  | warning
  deriving DecidableEq

def LogLevel.name : LogLevel → String
  | debug => "DEBUG"
  | warning => "WARNING"

structure LogRecord where
  level : LogLevel
  text : String
  deriving DecidableEq

/-- A result beside the records emitted on the way to it. -/
structure Logged (α : Type) where
  result : α
  log : List LogRecord := []

namespace Logged

variable {α β : Type}

/-- Another result, beside the same records. -/
def map (f : α → β) (l : Logged α) : Logged β := { result := f l.result, log := l.log }

/-- What follows on a result, its records after those before it. -/
def andThen (l : Logged α) (next : α → Logged β) : Logged β :=
  { result := (next l.result).result, log := l.log ++ (next l.result).log }

instance : Monad Logged where
  pure result := { result }
  bind := andThen

end Logged

end CloudEvents
