import CloudEvents.Wire.BatchMessage

/-!
# The schema

The wire format as a description: messages, their fields with numbers and types, and the file that
declares them. The numbers are those of `CloudEvents.Wire`, which read and write by them; here they
are only put under names.

## Main definitions

* `FieldSchema`, `MessageSchema`, `FileSchema`
* `eventFieldNumbers`, `attributeFieldNumbers`, `batchFieldNumbers` — fields by name
* `eventSchema`, `batchSchema`, `fileSchema`
-/

namespace CloudEvents

/-! ### Descriptions -/

inductive FieldType where
  | bool
  | int32
  | string
  | bytes
  /-- A message of another type, by its full name. -/
  | message (typeName : String)
  deriving DecidableEq

namespace FieldType

/-- The number by which descriptions of a schema refer to a type. -/
def number : FieldType → Nat
  | int32 => 5
  | bool => 8
  | string => 9
  | message _ => 11
  | bytes => 12

/-- The name of a message type; other types have none. -/
def typeName : FieldType → String
  | message name => name
  | _ => ""

end FieldType

/-- How often a field occurs. -/
inductive FieldLabel where
  | optional
  | repeated
  deriving DecidableEq

/-- The number by which descriptions of a schema refer to a label. -/
def FieldLabel.number : FieldLabel → Nat
  | optional => 1
  | repeated => 3

structure FieldSchema where
  name : String
  number : Nat
  type : FieldType
  label : FieldLabel := .optional
  /-- The position of the group of alternatives to which the field belongs. -/
  oneofIndex : Option Nat := none
  deriving DecidableEq

structure MessageSchema where
  name : String
  /-- The names of the groups of alternatives. -/
  oneofs : List String := []
  isMapEntry : Bool := false
  fields : List FieldSchema
  nested : List MessageSchema := []

structure FileSchema where
  name : String
  package : String
  dialect : String
  dependencies : List String
  messages : List MessageSchema

/-! ### Field numbers by name -/

/-- The name of the field that carries a value of the kind. -/
def AttributeKind.fieldName (kind : AttributeKind) : String := "ce_" ++ kind.name

def eventFieldNumbers : List (String × Nat) :=
  RequiredField.all.map (fun f => (f.name, f.fieldNumber)) ++ [("attributes", attributesField)]
    ++ DataKind.all.map fun k => (k.fieldName, k.fieldNumber)

def attributeFieldNumbers : List (String × Nat) :=
  AttributeKind.all.map fun k => (k.fieldName, k.fieldNumber)

def batchFieldNumbers : List (String × Nat) := [("events", eventsField)]

/-! ### Messages -/

def schemaPackage : String := "io.cloudevents.v1"

/-- The full name of a message of this schema. -/
def qualified (name : String) : String := "." ++ schemaPackage ++ "." ++ name

/-- The type in which a value of the kind is carried. -/
def AttributeKind.fieldType : AttributeKind → FieldType
  | boolean => .bool
  | integer => .int32
  | string | uri | uriRef => .string
  | bytes => .bytes
  | timestamp => .message ".google.protobuf.Timestamp"

/-- The type in which a payload of the kind is carried. -/
def DataKind.fieldType : DataKind → FieldType
  | binary => .bytes
  | text => .string
  | structured => .message ".google.protobuf.Any"

def attributeSchema : MessageSchema where
  name := "CloudEventAttributeValue"
  oneofs := ["attr"]
  fields := AttributeKind.all.map fun k =>
    { name := k.fieldName, number := k.fieldNumber, type := k.fieldType, oneofIndex := some 0 }

/-- An entry of the attribute map: its key and its value. -/
def entrySchema : MessageSchema where
  name := "AttributesEntry"
  isMapEntry := true
  fields :=
    [{ name := "key", number := 1, type := .string },
     { name := "value", number := 2
       type := .message (qualified "CloudEvent.CloudEventAttributeValue") }]

def eventSchema : MessageSchema where
  name := "CloudEvent"
  oneofs := ["data"]
  fields :=
    RequiredField.all.map (fun f => { name := f.name, number := f.fieldNumber, type := .string })
      ++ [{ name := "attributes", number := attributesField
            type := .message (qualified "CloudEvent.AttributesEntry"), label := .repeated }]
      ++ DataKind.all.map fun k =>
        { name := k.fieldName, number := k.fieldNumber, type := k.fieldType, oneofIndex := some 0 }
  nested := [entrySchema, attributeSchema]

def batchSchema : MessageSchema where
  name := "CloudEventBatch"
  fields :=
    [{ name := "events", number := eventsField, type := .message (qualified "CloudEvent")
       label := .repeated }]

/-- The file that declares the wire format. -/
def fileSchema : FileSchema where
  name := "io/cloudevents/v1/cloudevents.proto"
  package := schemaPackage
  dialect := "proto3"
  dependencies := ["google/protobuf/any.proto", "google/protobuf/timestamp.proto"]
  messages := [eventSchema, batchSchema]

/-! The schema declares exactly the fields that readers know. -/

example : eventSchema.fields.map FieldSchema.number = eventFields := by decide

example : attributeSchema.fields.map FieldSchema.number = attributeFields := by decide

end CloudEvents
