import CloudEvents.Program.Basic

/-!
# The demonstration

A program that sends temperature readings through the codec and tells what it did: one event there
and back, then a batch of five.

## Main definitions

* `Demo.reading` — the event of a reading
* `Demo.program` — the program
-/

namespace CloudEvents.Demo

variable {m : Type → Type} [Monad m] (s : Surroundings m)

/-- The event of a temperature reading, taken now. The number of the reading and the degrees are put
into text whatever they are. -/
def reading (readingId celsius : Candidate) : m Event := do
  let priority ← s.step (AttributeValue.create .integer (.int 3))
  let time ← s.step (AttributeValue.create .timestamp (.timestamp (← s.wall)))
  let schema ← s.step
    (AttributeValue.create .uri (.text "https://example.com/schemas/temperature"))
  s.step (Event.create
    { id := some (.text readingId.display)
      source := some (.text "/sensors/1")
      specVersion := some (.text "1.0")
      type := some (.text "temperature.updated")
      attributes := some (.ofFields
        [("priority", .attributeValue priority), ("time", .attributeValue time),
         ("dataschema", .attributeValue schema)])
      textData := some (.text (celsius.display ++ "C")) })

/-- The readings of the batch: five, one degree warmer each. -/
def readings : m (List Event) :=
  (List.range 5).mapM fun (i : Nat) => reading s (.int i) (.int (20 + i))

/-- The program. -/
def program : m Unit := do
  let codec : Codec := {}
  let event ← reading s (.int 123) (.int 42)
  let wire ← s.step (Program.encode codec event)
  s.print s!"Encoded event {event.id} into {wire.length} bytes: {wire.toHex}"
  let decoded ← s.step (Program.decode codec wire)
  let payload ← s.step decoded.asText
  let priority ← s.step (do (← decoded.getAttribute "priority").asInteger : Except Error Int)
  s.print s!"Decoded payload: {payload}, priority {priority}"
  let time ← s.step (do (← decoded.getAttribute "time").asTimestamp : Except Error Timestamp)
  s.print s!"Event time: {time.toRfc3339}"
  let batch : Batch := { events := ← readings s }
  let batchWire ← s.step (Program.encodeBatch codec batch)
  let restored ← s.step (Program.decodeBatch codec batchWire)
  s.print s!"Batch of {restored.length} events round-tripped in {batchWire.length} bytes"
  let payloads ← s.step (restored.events.mapM fun e => (e.asText : Except Error String))
  s.print s!"Payloads: {quotedTexts payloads}"

end CloudEvents.Demo
