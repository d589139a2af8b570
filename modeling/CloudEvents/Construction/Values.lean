import CloudEvents.Construction.Fields

/-!
# Building the parts of an event

Timestamps, attribute values and payloads from untyped input: by the name of a kind and a value
(`ofKind`), or from all their fields (`build`).

The value of an attribute and of a payload is taken as it is offered. It has to be of the type of
its kind already; a dictionary in its place is not built from. The kind itself is looked up by its
name, which may also be given as bytes.

## Main definitions

* `Timestamp.build`, `StructuredData.build`, `AttributeValue.build`, `EventData.build`
* `AttributeValue.ofContent?`, `AttributeValue.ofKind`, and the same for `EventData`
* `AttributeValue.create`, `EventData.create` — the constructors named after the kinds
* `Timestamp.ofCandidate` — an RFC 3339 text, or whatever was offered as one

## Main results

* `AttributeValue.ofContent?_content`, `EventData.ofContent?_content` — a built value is built again
  from its kind and its content
-/

namespace CloudEvents

/-! ### Timestamps and typed messages -/

/-- A timestamp from its fields. -/
def Timestamp.build (fields : Entries) : Built Timestamp :=
  (Built.value Timestamp.mk
    |>.apply (fields.required "seconds" Candidate.readInteger)
    |>.apply (fields.optional "nanos" 0 Candidate.readInteger)
    |>.alongside (fields.nothingBut ["seconds", "nanos"])).checked Timestamp.check

/-- The timestamp of a text. Other candidates are refused as the text that displays them. -/
def Timestamp.ofCandidate : Candidate → Except Error Timestamp
  | .text text => Timestamp.ofRfc3339 text
  | c => .error (.invalid [.notRfc3339 c.display])

/-- A typed message from its fields. -/
def StructuredData.build (fields : Entries) : Built StructuredData :=
  Built.value StructuredData.mk
    |>.apply (fields.required "type_url" Candidate.readText)
    |>.apply (fields.optional "value" [] Candidate.readBytes)
    |>.alongside (fields.nothingBut ["type_url", "value"])

/-! ### Attribute values -/

namespace AttributeValue

/-- The value of a kind whose content is this candidate, rules aside. -/
def ofContent? : AttributeKind → Candidate → Option AttributeValue
  | .boolean, .bool value => some (boolean value)
  | .integer, .int value => some (integer value)
  | .string, c => c.text?.map string
  | .bytes, .bytes value => some (bytes value)
  | .uri, c => c.text?.map uri
  | .uriRef, c => c.text?.map uriRef
  | .timestamp, .timestamp value => some (timestamp value)
  | _, _ => none

theorem ofContent?_content (v : AttributeValue) : ofContent? v.kind v.content = some v := by
  cases v <;> rfl

/-- A value of a kind, or the rule that a candidate breaks as one. -/
def ofKind (kind : AttributeKind) (c : Candidate) : Except (List Violation) AttributeValue :=
  match ofContent? kind c with
  | some v => v.check
  | none => .error [.attributeType kind c.typeName]

/-- An attribute value from its fields. -/
def build (fields : Entries) : Built AttributeValue :=
  (Built.value Prod.mk
    |>.apply (fields.required "kind" (Candidate.readName AttributeKind.ofName?))
    |>.apply (fields.required "value" Built.value)
    |>.alongside (fields.nothingBut ["kind", "value"])
  ).checked fun (kind, value) => ofKind kind value

/-- A value of a kind. A timestamp may also be given as a date-time. -/
def create (kind : AttributeKind) (c : Candidate) : Except Error AttributeValue :=
  (match kind, c with
  | .timestamp, .dateTime d => d.toTimestamp.map timestamp
  | kind, c => ofKind kind c).mapError .invalid

end AttributeValue

/-! ### Payloads -/

namespace EventData

/-- The payload of a kind whose content is this candidate. -/
def ofContent? : DataKind → Candidate → Option EventData
  | .binary, .bytes value => some (binary value)
  | .text, c => c.text?.map text
  | .structured, .structuredData value => some (structured value)
  | _, _ => none

theorem ofContent?_content (d : EventData) : ofContent? d.kind d.content = some d := by
  cases d <;> rfl

/-- A payload of a kind, or the rule that a candidate breaks as one. -/
def ofKind (kind : DataKind) (c : Candidate) : Except (List Violation) EventData :=
  match ofContent? kind c with
  | some d => .ok d
  | none => .error [.dataType kind c.typeName]

/-- A payload from its fields. -/
def build (fields : Entries) : Built EventData :=
  (Built.value Prod.mk
    |>.apply (fields.required "kind" (Candidate.readName DataKind.ofName?))
    |>.apply (fields.required "value" Built.value)
    |>.alongside (fields.nothingBut ["kind", "value"])
  ).checked fun (kind, value) => ofKind kind value

/-- A payload of a kind. A typed message is given by its type URL and, unless it is empty, its
value. -/
def create (kind : DataKind) (arguments : List Candidate) : Except Error EventData :=
  match kind, arguments with
  | .structured, typeUrl :: rest =>
    if 1 < rest.length then .error (.misuse .arguments)
    else
      let fields := ("type_url", typeUrl) :: rest.map fun value => ("value", value)
      ((StructuredData.build (.ofFields fields)).toExcept .structuredData).map structured
  | kind, [c] => (ofKind kind c).mapError .invalid
  | _, _ => .error (.misuse .arguments)

end EventData

end CloudEvents
