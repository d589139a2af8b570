import CloudEvents.Candidate.Basic

/-!
# Dumps

A dump takes a built value apart into dictionaries of its fields, down to scalars. It is a plain
view for other tools: kinds stay as they are, and nested values become dictionaries.

A dump of an event offers the event's fields again, so it can be built from, with one exception that
follows from the fields themselves: the content of an attribute or of a payload is accepted as it
is and never built, so a timestamp or a typed message inside a dump is a dictionary where a built
value is asked for.

## Main definitions

* `Event.dump`, `Batch.dump`, and one for each value inside them
* `Candidate.dump?` — the dump of a candidate that was built by this library
-/

namespace CloudEvents

/-- A dictionary whose keys are names. -/
def Candidate.ofFields (fields : List (String × Candidate)) : Candidate :=
  .dict (fields.map fun (name, value) => (.text name, value))

def Timestamp.dump (t : Timestamp) : Candidate :=
  .ofFields [("seconds", .int t.seconds), ("nanos", .int t.nanos)]

def AttributeValue.dump (v : AttributeValue) : Candidate :=
  .ofFields
    [("kind", .attributeKind v.kind),
     ("value", match v with
      | timestamp t => t.dump
      | v => v.content)]

def StructuredData.dump (s : StructuredData) : Candidate :=
  .ofFields [("type_url", .text s.typeUrl), ("value", .bytes s.value)]

def EventData.dump (d : EventData) : Candidate :=
  .ofFields
    [("kind", .dataKind d.kind),
     ("value", match d with
      | structured s => s.dump
      | d => d.content)]

/-- The fields of the dump of an event. -/
def Event.dumpFields (e : Event) : List (String × Candidate) :=
  [("id", .text e.id), ("source", .text e.source), ("spec_version", .text e.specVersion),
   ("type", .text e.type), ("attributes", .ofFields (e.attributes.map fun (name, value) =>
      (name, value.dump))), ("data", (e.data.map EventData.dump).getD .null)]

def Event.dump (e : Event) : Candidate := .ofFields e.dumpFields

/-- The fields of the dump of a batch. -/
def Batch.dumpFields (b : Batch) : List (String × Candidate) :=
  [("entries", .tuple (b.events.map Event.dump))]

def Batch.dump (b : Batch) : Candidate := .ofFields b.dumpFields

/-- The dump of a built value. -/
def Candidate.dump? : Candidate → Option Candidate
  | timestamp value => some value.dump
  | attributeValue value => some value.dump
  | structuredData value => some value.dump
  | eventData value => some value.dump
  | event value => some value.dump
  | batch value => some value.dump
  | _ => none

end CloudEvents
