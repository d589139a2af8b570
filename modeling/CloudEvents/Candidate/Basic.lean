import CloudEvents.Batch
import CloudEvents.Number.Binary64
import CloudEvents.Time.DateTime

/-!
# Candidates

Events are also built from input of which nothing is known beforehand: whatever a caller has at hand
is offered for a field, and the field accepts it or reports it. A candidate is such a value. It is a
scalar, a container of candidates, or one of the values that this library builds, since a part that
was built before may be offered for the whole. A kind that was read off a built value is the text of
its name wherever a text is asked for, and only its own text shows the difference.

Candidates never reach the inside of an event. Everything an event holds is a typed value that some
reader in `CloudEvents.Construction` made of a candidate.

## Main definitions

* `Candidate`, `Candidate.typeName` — the type, and what messages call the type of a candidate
* `Candidate.text?` — the text of a candidate that is one
* `Candidate.isFalsy` — the candidates that count as absent
* `AttributeValue.content`, `EventData.content`, `Candidate.fields?` — built values, taken apart
-/

namespace CloudEvents

/-- A value of unknown type. -/
inductive Candidate where
  | null
  | bool (value : Bool)
  | int (value : Int)
  | float (value : Binary64)
  | text (value : String)
  | attributeKind (value : AttributeKind)
  | dataKind (value : DataKind)
  | bytes (value : Bytes)
  /-- A byte string that may change, which no field accepts. -/
  | byteArray (value : Bytes)
  | list (elements : List Candidate)
  | tuple (elements : List Candidate)
  /-- Entries in order, no two of them with the same key. -/
  | dict (entries : List (Candidate × Candidate))
  | dateTime (value : DateTime)
  | timestamp (value : Timestamp)
  | attributeValue (value : AttributeValue)
  | structuredData (value : StructuredData)
  | eventData (value : EventData)
  | event (value : Event)
  | batch (value : Batch)

namespace Candidate

/-- What messages call the type of a candidate. -/
def typeName : Candidate → String
  | null => "NoneType"
  | bool _ => "bool"
  | int _ => "int"
  | float _ => "float"
  | text _ => "str"
  | attributeKind _ => "AttributeKind"
  | dataKind _ => "DataKind"
  | bytes _ => "bytes"
  | byteArray _ => "bytearray"
  | list _ => "list"
  | tuple _ => "tuple"
  | dict _ => "dict"
  | dateTime _ => "datetime"
  | timestamp _ => Model.timestamp.name
  | attributeValue _ => Model.attributeValue.name
  | structuredData _ => Model.structuredData.name
  | eventData _ => Model.eventData.name
  | event _ => Model.event.name
  | batch _ => Model.batch.name

/-- The model of a candidate that was built by this library. -/
def model? : Candidate → Option Model
  | timestamp _ => some .timestamp
  | attributeValue _ => some .attributeValue
  | structuredData _ => some .structuredData
  | eventData _ => some .eventData
  | event _ => some .event
  | batch _ => some .batch
  | _ => none

/-- The text of a candidate that is one, or a kind. -/
def text? : Candidate → Option String
  | text value => some value
  | attributeKind value => some value.name
  | dataKind value => some value.name
  | _ => none

/-- Nothing, zero and whatever is empty. -/
def isFalsy : Candidate → Bool
  | null => true
  | bool value => !value
  | int value => value = 0
  | float value => value.isZero
  | text value => value = ""
  | bytes value | byteArray value => value.isEmpty
  | list elements | tuple elements => elements.isEmpty
  | dict entries => entries.isEmpty
  | batch value => value.events.isEmpty
  | _ => false

/-- Tests for one particular text. -/
def isText (expected : String) (c : Candidate) : Bool := c.text? = some expected

end Candidate

/-! ### Built values, taken apart -/

/-- What an attribute value holds beside its kind. -/
def AttributeValue.content : AttributeValue → Candidate
  | boolean value => .bool value
  | integer value => .int value
  | bytes value => .bytes value
  | string value | uri value | uriRef value => .text value
  | timestamp value => .timestamp value

/-- What a payload holds beside its kind. -/
def EventData.content : EventData → Candidate
  | binary value => .bytes value
  | text value => .text value
  | structured value => .structuredData value

/-- The attribute map of an event, as a dictionary. -/
def Event.attributeEntries (e : Event) : List (Candidate × Candidate) :=
  e.attributes.map fun (name, value) => (.text name, .attributeValue value)

/-- The payload of an event, or nothing. -/
def Event.dataCandidate (e : Event) : Candidate := (e.data.map .eventData).getD .null

/-- The fields from which an event was built. -/
def Event.fields (e : Event) : List (String × Candidate) :=
  [("id", .text e.id), ("source", .text e.source), ("spec_version", .text e.specVersion),
   ("type", .text e.type), ("attributes", .dict e.attributeEntries), ("data", e.dataCandidate)]

/-- The fields of a built value, by name. A batch is a sequence and is not taken apart this way. -/
def Candidate.fields? : Candidate → Option (List (String × Candidate))
  | timestamp t => some [("seconds", .int t.seconds), ("nanos", .int t.nanos)]
  | attributeValue v => some [("kind", .attributeKind v.kind), ("value", v.content)]
  | structuredData s => some [("type_url", .text s.typeUrl), ("value", .bytes s.value)]
  | eventData d => some [("kind", .dataKind d.kind), ("value", d.content)]
  | event e => some e.fields
  | _ => none

end CloudEvents
