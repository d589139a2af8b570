import CloudEvents.Violation

/-!
# Why bytes are refused

Decoding fails for one of the causes of `Fault`. Each cause belongs to one of three classes, which
is what a caller dispatches on: the envelope is malformed, an attribute uses a variant of a newer
schema, or the payload does. A failure inside a batch carries the position of the event, and then
its cause is the same failure without the position.

## Main definitions

* `Fault`, `Fault.detail`, `Fault.rejection` — the cause, its wording and its class
* `DecodeError`, `DecodeError.message`, `DecodeError.atIndex`
* `DecodeError.cause` — what a failure was derived from, if it was derived from another
-/

namespace CloudEvents

/-- The message in which a field was found. -/
inductive Place where
  | event
  | batch
  | attributeValue (name : String)
  deriving DecidableEq

/-- How messages refer to a place. -/
def Place.label : Place → String
  | event => "CloudEvent"
  | batch => "CloudEventBatch"
  | attributeValue name => s!"attribute '{name}'"

/-- The class of a decode failure. -/
inductive Rejection where
  | malformedEnvelope
  | unknownAttributeVariant
  | unknownDataVariant
  deriving DecidableEq

/-- The reason for which bytes are no event or no batch. -/
inductive Fault where
  /-- The input is longer than the codec accepts. -/
  | oversized (size limit : Nat)
  /-- The input is no message of the wire format at all. -/
  | unparseable (place : Place)
  /-- A field that the schema does not declare. -/
  | unknownField (place : Place) (number : Nat)
  /-- A declared field in a form that it does not have. -/
  | wireType (place : Place) (number wireType : Nat)
  /-- An entry of the attribute map with fields beside its key and value. -/
  | overfullEntry
  /-- Required attributes that are absent or empty. -/
  | missing (fields : List RequiredField)
  /-- An attribute without a value. -/
  | noValue (name : String)
  /-- A well-formed message whose event breaks rules of the event model. -/
  | invalid (violations : List Violation)
  deriving DecidableEq

namespace Fault

/-- A field that no place declares is a newer variant of what the place holds. A batch holds nothing
but events, so there it is a malformed envelope, and so is every other fault. -/
def rejection : Fault → Rejection
  | unknownField .event _ => .unknownDataVariant
  | unknownField (.attributeValue _) _ => .unknownAttributeVariant
  | _ => .malformedEnvelope

def detail : Fault → String
  | oversized size limit => s!"payload of {size} bytes exceeds max_message_size {limit}"
  | unparseable place => s!"not a valid {place.label} message"
  | unknownField place number => s!"{place.label} carries unrecognised field {number}"
  | wireType place number found => s!"{place.label} field {number} has unexpected wire type {found}"
  | overfullEntry => s!"{Place.event.label} field 5 (attributes) carries unrecognised fields"
  | missing fields =>
    "missing required attribute(s): " ++ ", ".intercalate (fields.map RequiredField.name)
  | noValue name => s!"{(Place.attributeValue name).label} carries no value"
  | invalid violations => Violation.report violations

end Fault

/-- A fault, with the position of the event if it was found inside a batch. -/
structure DecodeError where
  fault : Fault
  index : Option Nat := none
  deriving DecidableEq

namespace DecodeError

/-- The class of the failure does not depend on its position. -/
def rejection (e : DecodeError) : Rejection := e.fault.rejection

def message (e : DecodeError) : String :=
  match e.index with
  | none => e.fault.detail
  | some i => s!"event at index {i}: {e.fault.detail}"

/-- The same failure, attributed to a position in a batch. -/
def atIndex (e : DecodeError) (index : Nat) : DecodeError := { e with index := some index }

/-- What a failure was derived from: the failure of one event, or the rules that it broke. -/
inductive Cause where
  | event (error : DecodeError)
  | violations (violations : List Violation)
  deriving DecidableEq

def cause (e : DecodeError) : Option Cause :=
  match e.index, e.fault with
  | some _, fault => some (.event { fault })
  | none, .invalid violations => some (.violations violations)
  | none, _ => none

end DecodeError

end CloudEvents
