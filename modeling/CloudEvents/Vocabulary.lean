/-!
# The closed vocabularies of an event

Four context attributes are required and have fields of their own. Every other attribute has one of
seven kinds, and a payload has one of three. The names below are the ones that appear in error
messages and in untyped input; they are not the attribute names of the wire schema, which
`CloudEvents.Schema` lists.

## Main definitions

* `RequiredField` and `reservedNames` — the required attributes, and the names they take away from
  the attribute map. The two differ in one spelling: the field is `spec_version`, the reserved
  name `specversion`.
* `AttributeKind`, `DataKind` — the kinds, with the type each one holds
-/

namespace CloudEvents

/-! ### Required attributes -/

/-- An attribute that every event has. -/
inductive RequiredField where
  | id
  | source
  | specVersion
  | type
  deriving DecidableEq

namespace RequiredField

/-- The required attributes, in the order in which they are checked and reported. -/
def all : List RequiredField := [id, source, specVersion, type]

/-- The name of the field that holds the attribute. -/
def name : RequiredField → String
  | id => "id"
  | source => "source"
  | specVersion => "spec_version"
  | type => "type"

/-- The name of the attribute itself, which no entry of the attribute map may take. -/
def attributeName : RequiredField → String
  | id => "id"
  | source => "source"
  | specVersion => "specversion"
  | type => "type"

theorem mem_all (f : RequiredField) : f ∈ all := by cases f <;> decide

end RequiredField

/-- The names that the attribute map never holds. -/
def reservedNames : List String := RequiredField.all.map RequiredField.attributeName

/-! ### Kinds of attribute values -/

/-- The seven types of an optional attribute. -/
inductive AttributeKind where
  | boolean
  | integer
  | string
  | bytes
  | uri
  | uriRef
  | timestamp
  deriving DecidableEq

namespace AttributeKind

def all : List AttributeKind := [boolean, integer, string, bytes, uri, uriRef, timestamp]

def name : AttributeKind → String
  | boolean => "boolean"
  | integer => "integer"
  | string => "string"
  | bytes => "bytes"
  | uri => "uri"
  | uriRef => "uri_ref"
  | timestamp => "timestamp"

/-- The kind of this name. -/
def ofName? (name : String) : Option AttributeKind := all.find? (·.name == name)

/-- The type that a value of the kind has, as messages call it. -/
def requiredType : AttributeKind → String
  | boolean => "bool"
  | integer => "int"
  | string | uri | uriRef => "str"
  | bytes => "bytes"
  | timestamp => "Timestamp"

theorem ofName?_name (k : AttributeKind) : ofName? k.name = some k := by cases k <;> decide

end AttributeKind

/-! ### Kinds of payloads -/

/-- The three forms of a payload. -/
inductive DataKind where
  | binary
  | text
  | structured
  deriving DecidableEq

namespace DataKind

def all : List DataKind := [binary, text, structured]

def name : DataKind → String
  | binary => "binary"
  | text => "text"
  | structured => "structured"

/-- The kind of this name. -/
def ofName? (name : String) : Option DataKind := all.find? (·.name == name)

/-- The type that a payload of the kind has, as messages call it. -/
def requiredType : DataKind → String
  | binary => "bytes"
  | text => "str"
  | structured => "StructuredData"

theorem ofName?_name (k : DataKind) : ofName? k.name = some k := by cases k <;> decide

end DataKind

end CloudEvents
