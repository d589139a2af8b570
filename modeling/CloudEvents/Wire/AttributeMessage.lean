import CloudEvents.Attribute
import CloudEvents.Wire.Embedded

/-!
# Attribute values on the wire

The value of an attribute is a message with seven fields, one for each kind, of which it holds at
most one: a later field replaces an earlier one of another kind. A timestamp that comes again while
a timestamp is held is merged into it.

The field is always written, also for `false`, zero and the empty text, because it is the field
that carries the kind.

## Main definitions

* `AttributeKind.fieldNumber`, `attributeFields`
* `AttributeMessage`, `AttributeMessage.merge` — a value as parsed
* `AttributeMessage.assign` — a value set in a message
* `AttributeValue.record` — a value as written
* `AttributeMessage.toValue` — the checks between the two
-/

namespace CloudEvents

namespace AttributeKind

/-- The field that carries a value of the kind. -/
def fieldNumber : AttributeKind → Nat
  | boolean => 1
  | integer => 2
  | string => 3
  | bytes => 4
  | uri => 5
  | uriRef => 6
  | timestamp => 7

end AttributeKind

/-- The fields that the schema declares for a value. -/
def attributeFields : List Nat := AttributeKind.all.map AttributeKind.fieldNumber

/-- A value as parsed: what it holds, unchecked, and the records that its schema does not know. -/
structure AttributeMessage where
  value : Option AttributeValue := none
  unknown : List Record := []
  deriving DecidableEq

/-! ### Writing -/

/-- The one record of a value. -/
def AttributeValue.record : AttributeValue → Record
  | boolean b => ⟨AttributeKind.boolean.fieldNumber, .varint (if b then 1 else 0)⟩
  | integer i => ⟨AttributeKind.integer.fieldNumber, .varint (Varint.ofInt i)⟩
  | string s => ⟨AttributeKind.string.fieldNumber, .delimited (Bytes.ofText s)⟩
  | bytes b => ⟨AttributeKind.bytes.fieldNumber, .delimited b⟩
  | uri s => ⟨AttributeKind.uri.fieldNumber, .delimited (Bytes.ofText s)⟩
  | uriRef s => ⟨AttributeKind.uriRef.fieldNumber, .delimited (Bytes.ofText s)⟩
  | timestamp t => ⟨AttributeKind.timestamp.fieldNumber, .delimited t.encode⟩

namespace AttributeMessage

def records (m : AttributeMessage) : List Record := (m.value.map AttributeValue.record).toList

def encode (m : AttributeMessage) : Bytes := encodeRecords m.records

/-- Sets the value of a message. What is kept aside stays. -/
def assign (m : AttributeMessage) (v : AttributeValue) : AttributeMessage :=
  { m with value := some v }

/-! ### Reading -/

/-- The timestamp into which another one is merged. -/
def heldTimestamp (m : AttributeMessage) : Timestamp :=
  match m.value with
  | some (.timestamp t) => t
  | _ => { seconds := 0 }

/-- The effect of one record. Texts have to be UTF-8, integers keep their low 32 bits, and a boolean
is true when any of 64 bits is set. -/
def apply (depth : Nat) (m : AttributeMessage) (r : Record) : Option AttributeMessage :=
  match r.number, r.payload with
  | 1, .varint v => some { m with value := some (.boolean (v ≠ 0)) }
  | 2, .varint v => some { m with value := some (.integer (Varint.toInt32 v)) }
  | 3, .delimited b => (Bytes.toText? b).map fun s => { m with value := some (.string s) }
  | 4, .delimited b => some { m with value := some (.bytes b) }
  | 5, .delimited b => (Bytes.toText? b).map fun s => { m with value := some (.uri s) }
  | 6, .delimited b => (Bytes.toText? b).map fun s => { m with value := some (.uriRef s) }
  | 7, .delimited b =>
    (m.heldTimestamp.merge (depth - 1) b).map fun t => { m with value := some (.timestamp t) }
  | _, _ => some { m with unknown := m.unknown ++ [r] }

def merge (depth : Nat) (held : AttributeMessage) (body : Bytes) : Option AttributeMessage :=
  mergeMessage (apply depth) depth held body

/-! ### Interpreting -/

/-- The value of the attribute `name`: known fields only, one of them set, and its rules kept. -/
def toValue (name : String) (m : AttributeMessage) : Except Fault AttributeValue :=
  match m.unknown, m.value with
  | r :: _, _ =>
    if r.number ∉ attributeFields then .error (.unknownField (.attributeValue name) r.number)
    else .error (.wireType (.attributeValue name) r.number r.payload.wireType)
  | [], none => .error (.noValue name)
  | [], some value => value.check.mapError .invalid

end AttributeMessage

end CloudEvents
