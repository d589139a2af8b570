import CloudEvents.Wire.Record

/-!
# Reading a message

A message is read by taking its records in order and applying each to what is held so far. That one
rule gives the wire format's merge semantics: a repeated scalar replaces the earlier one, a repeated
embedded message is merged into the earlier one, and reading two byte strings one after the other is
reading their concatenation.

Each message type supplies `apply`, the effect of one record. It answers `none` for a record that is
recognised but cannot be read, text that is not UTF-8 for instance, and then the whole input is
refused. A record that is not recognised is no failure: the message keeps it aside and whoever
interprets the message decides.

## Main definitions

* `maxDepth` — how many messages and groups may be nested below the outermost message
* `mergeMessage` — a message body, merged into a held value
* `Varint.toInt32`, `Varint.toInt64`, `Varint.ofInt` — the two's-complement reading of varints
-/

namespace CloudEvents

/-- The number of levels below the outermost message. The schema itself needs at most four of them,
for a batch, its event, an attribute entry, its value and a timestamp; groups may use the rest. -/
def maxDepth : Nat := 100

/-- Applies the records of `body` to `held`, in order; none if the body is no sequence of records or
one of its records cannot be applied. -/
def mergeMessage {α : Type} (apply : α → Record → Option α) (depth : Nat) (held : α)
    (body : Bytes) : Option α :=
  (readRecords depth [] body).bind fun records => records.foldlM apply held

/-! ### Integers in varints -/

namespace Varint

/-- The low 32 bits, read as two's complement. -/
def toInt32 (value : Nat) : Int := Int.bmod value UInt32.size

/-- The low 64 bits, read as two's complement. -/
def toInt64 (value : Nat) : Int := Int.bmod value UInt64.size

/-- The 64-bit two's complement of an integer. A negative integer takes ten bytes. -/
def ofInt (value : Int) : Nat := (value % UInt64.size).toNat

end Varint

end CloudEvents
