import CloudEvents.Error
import CloudEvents.EventData
import CloudEvents.Timestamp
import CloudEvents.Wire.Message

/-!
# Embedded messages

Timestamps and typed messages are carried as messages of their own, each with two fields that are
left out when they have their default value. Fields that these two messages do not declare are
passed over.

Written forms are lists of records, so that a message embedded in another is one record whose
payload is the encoding of a list.

## Main definitions

* `Timestamp.records`, `Timestamp.merge` — seconds (1) and nanoseconds (2), as varints
* `StructuredData.records`, `StructuredData.merge` — type URL (1) and value (2), length-delimited
-/

namespace CloudEvents

namespace Timestamp

/-- The fields of a timestamp that differ from zero. -/
def records (t : Timestamp) : List Record :=
  (if t.seconds = 0 then [] else [⟨1, .varint (Varint.ofInt t.seconds)⟩])
    ++ if t.nanos = 0 then [] else [⟨2, .varint (Varint.ofInt t.nanos)⟩]

/-- Seconds have 64 bits and nanoseconds 32. -/
def apply (t : Timestamp) (r : Record) : Option Timestamp :=
  match r.number, r.payload with
  | 1, .varint value => some { t with seconds := Varint.toInt64 value }
  | 2, .varint value => some { t with nanos := Varint.toInt32 value }
  | _, _ => some t

def merge (depth : Nat) (held : Timestamp) (body : Bytes) : Option Timestamp :=
  mergeMessage apply depth held body

/-- The encoding of a timestamp as a message of its own. -/
def encode (t : Timestamp) : Bytes := encodeRecords t.records

/-- The timestamp of a message with these two numbers, which have to fit its fields. -/
def ofFields (seconds nanos : Int) : Except Error Timestamp :=
  if Varint.toInt64 (Varint.ofInt seconds) = seconds
      ∧ Varint.toInt32 (Varint.ofInt nanos) = nanos then
    (check { seconds, nanos }).mapError .invalid
  else .error (.misuse .notWireInteger)

end Timestamp

namespace StructuredData

/-- The fields of a typed message that are not empty. -/
def records (s : StructuredData) : List Record :=
  (if s.typeUrl = "" then [] else [⟨1, .delimited (Bytes.ofText s.typeUrl)⟩])
    ++ if s.value = [] then [] else [⟨2, .delimited s.value⟩]

/-- The type URL is text; the value is any bytes. -/
def apply (s : StructuredData) (r : Record) : Option StructuredData :=
  match r.number, r.payload with
  | 1, .delimited bytes => (Bytes.toText? bytes).map fun typeUrl => { s with typeUrl }
  | 2, .delimited value => some { s with value }
  | _, _ => some s

def merge (depth : Nat) (held : StructuredData) (body : Bytes) : Option StructuredData :=
  mergeMessage apply depth held body

def encode (s : StructuredData) : Bytes := encodeRecords s.records

end StructuredData

end CloudEvents
