import CloudEvents.Batch
import CloudEvents.Wire.EventMessage

/-!
# Batches on the wire

A batch is a message with one repeated field, an event message for each event in order.
-/

namespace CloudEvents

/-- The field of the events of a batch. -/
def eventsField : Nat := 1

/-- A batch as parsed. -/
structure BatchMessage where
  events : List EventMessage := []
  unknown : List Record := []
  deriving DecidableEq

namespace BatchMessage

def records (m : BatchMessage) : List Record :=
  m.events.map fun event => ⟨eventsField, .delimited event.encode⟩

def encode (m : BatchMessage) : Bytes := encodeRecords m.records

/-- The effect of one record. -/
def apply (depth : Nat) (m : BatchMessage) (r : Record) : Option BatchMessage :=
  match r.number, r.payload with
  | 1, .delimited b =>
    (EventMessage.parse (depth - 1) b).map fun event => { m with events := m.events ++ [event] }
  | _, _ => some { m with unknown := m.unknown ++ [r] }

/-- A message at the given depth, read from its body. -/
def parse (depth : Nat) (body : Bytes) : Option BatchMessage :=
  mergeMessage (apply depth) depth {} body

/-- The fault of the first record that the schema does not know. -/
def unknownFault (m : BatchMessage) : Option Fault :=
  m.unknown.head?.map fun r =>
    if r.number = eventsField then .wireType .batch r.number r.payload.wireType
    else .unknownField .batch r.number

/-- The events that a message describes. The first that cannot be interpreted fails the batch, and
the failure tells its position. -/
def toBatch (m : BatchMessage) : Except DecodeError Batch := do
  if let some fault := m.unknownFault then throw { fault }
  let events ← m.events.zipIdx.mapM fun (event, index) =>
    event.toEvent.mapError fun fault => DecodeError.atIndex { fault } index
  return { events }

end BatchMessage

end CloudEvents
