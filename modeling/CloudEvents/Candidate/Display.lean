import CloudEvents.Candidate.Basic
import CloudEvents.Number.Shortest
import CloudEvents.Text.Quoted
import CloudEvents.Time.Rfc3339

/-!
# Candidates as text

Messages quote candidates that were offered in place of a text, and readings turn any candidate into
text. A text stands for itself when it is the whole, and is quoted inside anything larger. A
date-time is likewise shown as a date and a time when it is the whole, and as the call that makes it
inside anything larger.

## Main definitions

* `Candidate.display` — the text of a candidate
* `Candidate.quoted` — its text inside something larger
-/

namespace CloudEvents

/-! ### Built values -/

/-- A kind by its type and its name in capitals. -/
private def kindText (type name : String) : String := type ++ "." ++ name.toUpper

private def quotedKind (type name : String) : String :=
  "<" ++ kindText type name ++ ": " ++ quotedText name ++ ">"

/-- Printed fields, by name. -/
private abbrev FieldTexts := List (String × String)

private def FieldTexts.join (separator : String) (fields : FieldTexts) : String :=
  separator.intercalate (fields.map fun (name, value) => name ++ "=" ++ value)

private def FieldTexts.call (model : Model) (fields : FieldTexts) : String :=
  model.name ++ "(" ++ fields.join ", " ++ ")"

private def Timestamp.fieldTexts (t : Timestamp) : FieldTexts :=
  [("seconds", toString t.seconds), ("nanos", toString t.nanos)]

private def StructuredData.fieldTexts (s : StructuredData) : FieldTexts :=
  [("type_url", quotedText s.typeUrl), ("value", quotedBytes s.value)]

private def boolText (value : Bool) : String := if value then "True" else "False"

private def AttributeValue.contentText : AttributeValue → String
  | boolean value => boolText value
  | integer value => toString value
  | string value | uri value | uriRef value => quotedText value
  | bytes value => quotedBytes value
  | timestamp value => value.fieldTexts.call .timestamp

private def AttributeValue.fieldTexts (v : AttributeValue) : FieldTexts :=
  [("kind", quotedKind "AttributeKind" v.kind.name), ("value", v.contentText)]

private def EventData.contentText : EventData → String
  | binary value => quotedBytes value
  | text value => quotedText value
  | structured value => value.fieldTexts.call .structuredData

private def EventData.fieldTexts (d : EventData) : FieldTexts :=
  [("kind", quotedKind "DataKind" d.kind.name), ("value", d.contentText)]

private def bracketed (opening closing : String) (parts : List String) : String :=
  opening ++ ", ".intercalate parts ++ closing

/-- A tuple of one element keeps a comma, which tells it from a mere parenthesis. -/
private def tupleEnd (length : Nat) : String := if length = 1 then ",)" else ")"

private def Event.fieldTexts (e : Event) : FieldTexts :=
  let attributes := e.attributes.map fun (name, value) =>
    quotedText name ++ ": " ++ value.fieldTexts.call .attributeValue
  [("id", quotedText e.id), ("source", quotedText e.source),
   ("spec_version", quotedText e.specVersion), ("type", quotedText e.type),
   ("attributes", bracketed "mappingproxy(\x7b" "\x7d)" attributes),
   ("data", (e.data.map fun d => d.fieldTexts.call .eventData).getD "None")]

private def Batch.fieldTexts (b : Batch) : FieldTexts :=
  let events := b.events.map fun e => e.fieldTexts.call .event
  [("entries", bracketed "(" (tupleEnd events.length) events)]

/-! ### All candidates -/

mutual

/-- The text of a candidate inside something larger. -/
def Candidate.quoted : Candidate → String
  | .null => "None"
  | .bool value => boolText value
  | .int value => toString value
  | .float value => value.text
  | .text value => quotedText value
  | .attributeKind value => quotedKind "AttributeKind" value.name
  | .dataKind value => quotedKind "DataKind" value.name
  | .bytes value => quotedBytes value
  | .byteArray value => quotedByteArray value
  | .list elements => bracketed "[" "]" (quotedAll elements)
  | .tuple elements => bracketed "(" (tupleEnd elements.length) (quotedAll elements)
  | .dict entries => bracketed "\x7b" "\x7d" (quotedEntries entries)
  | .dateTime value => value.literal
  | .timestamp value => value.fieldTexts.call .timestamp
  | .attributeValue value => value.fieldTexts.call .attributeValue
  | .structuredData value => value.fieldTexts.call .structuredData
  | .eventData value => value.fieldTexts.call .eventData
  | .event value => value.fieldTexts.call .event
  | .batch value => value.fieldTexts.call .batch

private def quotedAll : List Candidate → List String
  | [] => []
  | element :: rest => element.quoted :: quotedAll rest

private def quotedEntries : List (Candidate × Candidate) → List String
  | [] => []
  | (key, value) :: rest => (key.quoted ++ ": " ++ value.quoted) :: quotedEntries rest

end

/-- The text of a candidate. -/
def Candidate.display : Candidate → String
  | .text value => value
  | .attributeKind value => kindText "AttributeKind" value.name
  | .dataKind value => kindText "DataKind" value.name
  | .dateTime value => value.toText " "
  | .timestamp value => value.toRfc3339
  | .attributeValue value => value.fieldTexts.join " "
  | .structuredData value => value.fieldTexts.join " "
  | .eventData value => value.fieldTexts.join " "
  | .event value => value.fieldTexts.join " "
  | .batch value => value.fieldTexts.join " "
  | c => c.quoted

/-- The texts `['a', 'b']` of a list of texts. -/
def quotedTexts (texts : List String) : String := bracketed "[" "]" (texts.map quotedText)

end CloudEvents
