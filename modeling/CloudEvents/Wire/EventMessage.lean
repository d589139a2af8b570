import CloudEvents.Event
import CloudEvents.Wire.AttributeMessage

/-!
# Events on the wire

An event is a message with four text fields, one entry for each attribute and at most one of three
payload fields. `EventMessage` is such a message as parsed, before anything has been decided about
it. Interpreting it (`EventMessage.toEvent`) is where the schema's policy lives: fields it does not
declare are refused rather than dropped, and the event must satisfy every rule of the event model.

Writing goes the other way through the same type: `EventMessage.fill` clears a message and sets its
fields from an event, and `EventMessage.encode` writes it.

## Main definitions

* `RequiredField.fieldNumber`, `attributesField`, `DataKind.fieldNumber`, `eventFields`
* `EventMessage`, `EventMessage.parse`, `EventMessage.encode`
* `EventMessage.assign`, `EventMessage.fill`, `EventMessage.toEvent`

## Implementation notes

An entry of the attribute map is itself a message of a key and a value. Entries are merged into the
map only when complete: a repeated key replaces the earlier value wholly, while a value repeated
inside one entry is merged. An entry with further fields does not reach the map at all and is kept
as an unknown record of the event.
-/

namespace CloudEvents

/-! ### Field numbers -/

/-- The field of a required attribute. -/
def RequiredField.fieldNumber : RequiredField → Nat
  | id => 1
  | source => 2
  | specVersion => 3
  | type => 4

/-- The field of the attribute map. -/
def attributesField : Nat := 5

/-- The field of a payload of the kind. -/
def DataKind.fieldNumber : DataKind → Nat
  | binary => 6
  | text => 7
  | structured => 8

/-- The name of the field of a payload of the kind. -/
def DataKind.fieldName : DataKind → String
  | binary => "binary_data"
  | text => "text_data"
  | structured => "proto_data"

/-- The fields that the schema declares for an event. -/
def eventFields : List Nat :=
  RequiredField.all.map RequiredField.fieldNumber ++ [attributesField]
    ++ DataKind.all.map DataKind.fieldNumber

/-! ### Messages -/

/-- An event as parsed. An absent text field reads as empty. -/
structure EventMessage where
  id : String := ""
  source : String := ""
  specVersion : String := ""
  type : String := ""
  attributes : NameMap AttributeMessage := []
  data : Option EventData := none
  unknown : List Record := []
  deriving DecidableEq

/-- An entry of the attribute map as parsed. -/
structure EntryMessage where
  key : String := ""
  value : AttributeMessage := {}
  unknown : List Record := []
  deriving DecidableEq

/-! ### Writing -/

/-- The record of an entry: its key and its value, both always written. -/
def entryRecord (entry : String × AttributeMessage) : Record :=
  ⟨attributesField, .delimited (encodeRecords
    [⟨1, .delimited (Bytes.ofText entry.1)⟩, ⟨2, .delimited entry.2.encode⟩])⟩

/-- The record of a text field, left out when the text is empty. -/
def textRecords (field : RequiredField) (text : String) : List Record :=
  if text = "" then [] else [⟨field.fieldNumber, .delimited (Bytes.ofText text)⟩]

/-- The record of a payload, always written. -/
def EventData.record : EventData → Record
  | binary b => ⟨DataKind.binary.fieldNumber, .delimited b⟩
  | text s => ⟨DataKind.text.fieldNumber, .delimited (Bytes.ofText s)⟩
  | structured s => ⟨DataKind.structured.fieldNumber, .delimited s.encode⟩

namespace EventMessage

/-- Entries in the order of the bytes of their names, a name before its prefixes. -/
def sortEntries {α : Type} (entries : NameMap α) : NameMap α :=
  entries.mergeSort fun a b => Bytes.precedes (Bytes.ofText a.1) (Bytes.ofText b.1)

/-- The records of a message, its entries in the order given. -/
def records (m : EventMessage) : List Record :=
  textRecords .id m.id ++ textRecords .source m.source
    ++ textRecords .specVersion m.specVersion ++ textRecords .type m.type
    ++ m.attributes.map entryRecord
    ++ (m.data.map EventData.record).toList

/-- The encoding of a message with its entries as they stand. -/
def encode (m : EventMessage) : Bytes := encodeRecords m.records

/-- The message with its entries sorted, which makes its encoding canonical. -/
def canonical (m : EventMessage) : EventMessage := { m with attributes := sortEntries m.attributes }

/-! ### Filling from an event -/

/-- Sets the entries of these names, each in the entry that is there or in a new one. -/
def assignEntries (held : NameMap AttributeMessage) (entries : NameMap AttributeValue) :
    NameMap AttributeMessage :=
  entries.foldl (fun held (name, value) =>
    held.insert name (((held.lookup name).getD {}).assign value)) held

/-- Sets the fields of an event in a message, one by one. The payload is set if there is one. -/
def assign (m : EventMessage) (e : Event) : EventMessage :=
  { m with
    id := e.id
    source := e.source
    specVersion := e.specVersion
    type := e.type
    attributes := assignEntries m.attributes e.attributes
    data := e.data.or m.data }

/-- A message without any field. -/
def clear (_ : EventMessage) : EventMessage := {}

/-- Clears a message and sets its fields from an event, so that nothing it held before survives. -/
def fill (m : EventMessage) (e : Event) : EventMessage := m.clear.assign e

end EventMessage

/-! ### Reading -/

/-- The effect of one record of an entry. -/
def EntryMessage.apply (depth : Nat) (m : EntryMessage) (r : Record) : Option EntryMessage :=
  match r.number, r.payload with
  | 1, .delimited b => (Bytes.toText? b).map fun key => { m with key }
  | 2, .delimited b => (m.value.merge (depth - 1) b).map fun value => { m with value }
  | _, _ => some { m with unknown := m.unknown ++ [r] }

def EntryMessage.parse (depth : Nat) (body : Bytes) : Option EntryMessage :=
  mergeMessage (EntryMessage.apply depth) depth {} body

namespace EventMessage

/-- The typed message into which another one is merged. -/
def heldStructured (m : EventMessage) : StructuredData :=
  match m.data with
  | some (.structured s) => s
  | _ => { typeUrl := "" }

/-- Takes in an entry of the attribute map, read from the record `r`. -/
def addEntry (m : EventMessage) (r : Record) (entry : EntryMessage) : EventMessage :=
  if entry.unknown.isEmpty then { m with attributes := m.attributes.insert entry.key entry.value }
  else { m with unknown := m.unknown ++ [r] }

/-- The effect of one record. -/
def apply (depth : Nat) (m : EventMessage) (r : Record) : Option EventMessage :=
  match r.number, r.payload with
  | 1, .delimited b => (Bytes.toText? b).map fun id => { m with id }
  | 2, .delimited b => (Bytes.toText? b).map fun source => { m with source }
  | 3, .delimited b => (Bytes.toText? b).map fun specVersion => { m with specVersion }
  | 4, .delimited b => (Bytes.toText? b).map fun type => { m with type }
  | 5, .delimited b => (EntryMessage.parse (depth - 1) b).map (m.addEntry r)
  | 6, .delimited b => some { m with data := some (.binary b) }
  | 7, .delimited b => (Bytes.toText? b).map fun s => { m with data := some (.text s) }
  | 8, .delimited b =>
    (m.heldStructured.merge (depth - 1) b).map fun s => { m with data := some (.structured s) }
  | _, _ => some { m with unknown := m.unknown ++ [r] }

/-- A message at the given depth, read from its body. -/
def parse (depth : Nat) (body : Bytes) : Option EventMessage :=
  mergeMessage (apply depth) depth {} body

/-! ### Interpreting -/

/-- The text of a required attribute. -/
def required (m : EventMessage) : RequiredField → String
  | .id => m.id
  | .source => m.source
  | .specVersion => m.specVersion
  | .type => m.type

/-- The fault of the first record that the schema does not know. A declared field in its declared
form is unknown only as an entry of the attribute map with further fields. -/
def unknownFault (m : EventMessage) : Option Fault :=
  m.unknown.head?.map fun r =>
    if r.number ∉ eventFields then .unknownField .event r.number
    else if r.payload.wireType = 2 then .overfullEntry
    else .wireType .event r.number r.payload.wireType

/-- The event that a message describes. Unknown fields come first, then absent required attributes,
then the attributes in their order, then the rules of the event as a whole. -/
def toEvent (m : EventMessage) : Except Fault Event := do
  if let some fault := m.unknownFault then throw fault
  let missing := RequiredField.all.filter fun f => m.required f = ""
  if !missing.isEmpty then throw (.missing missing)
  let attributes ← m.attributes.mapM fun (name, value) => do
    return (name, ← value.toValue name)
  let event : Event :=
    { id := m.id, source := m.source, specVersion := m.specVersion, type := m.type
      attributes, data := m.data }
  event.check.mapError .invalid

end EventMessage

end CloudEvents
