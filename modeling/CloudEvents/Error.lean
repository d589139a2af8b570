import CloudEvents.DecodeError

/-!
# Errors

Everything that a call of the library can fail with. Four sorts are kept apart.

* A rule of the event model is broken, an attribute is absent, or a value is of another kind than
  the caller asked for.
* Bytes do not decode (`DecodeError`).
* Untyped input has the wrong shape (`Issue`): a field is missing, is not expected, or holds
  something of the wrong type. All issues of one value are reported together.
* The call itself makes no sense (`Misuse`): bytes are asked of something that is not an event, an
  index lies outside a batch.
-/

namespace CloudEvents

/-! ### Shapes -/

/-- The values that are built from named fields. -/
inductive Model where
  | timestamp
  | attributeValue
  | structuredData
  | eventData
  | event
  | batch
  deriving DecidableEq

def Model.name : Model → String
  | timestamp => "Timestamp"
  | attributeValue => "AttributeValue"
  | structuredData => "StructuredData"
  | eventData => "CloudEventData"
  | event => "CloudEvent"
  | batch => "CloudEventBatch"

/-- One step from a value to a part of it. -/
inductive Step where
  | field (name : String)
  | index (position : Int)
  deriving DecidableEq

/-- What is wrong with one part of an untyped value. -/
inductive IssueKind where
  | missing
  | extraForbidden
  | invalidKey
  | intType
  | stringType
  | bytesType
  | dictType
  | tupleType
  | modelType
  | unknownName
  | frozenInstance
  deriving DecidableEq

def IssueKind.name : IssueKind → String
  | missing => "missing"
  | extraForbidden => "extra_forbidden"
  | invalidKey => "invalid_key"
  | intType => "int_type"
  | stringType => "string_type"
  | bytesType => "bytes_type"
  | dictType => "dict_type"
  | tupleType => "tuple_type"
  | modelType => "model_type"
  | unknownName => "enum"
  | frozenInstance => "frozen_instance"

/-- A part of an untyped value, reached by `path` from the outside, and what is wrong with it. -/
structure Issue where
  path : List Step
  kind : IssueKind
  deriving DecidableEq

/-- The same issue, seen from a value that holds the part under `step`. -/
def Issue.under (issue : Issue) (step : Step) : Issue := { issue with path := step :: issue.path }

/-! ### Misuse -/

/-- A call that makes no sense for its arguments. -/
inductive Misuse where
  /-- Something other than an event was to be encoded. -/
  | notAnEvent
  /-- Something other than bytes was to be decoded. -/
  | notBytes
  /-- A size limit that is no integer. -/
  | limitNotInteger
  /-- A size limit of zero or less. -/
  | limitNotPositive
  /-- A required argument was left out, or there were too many. -/
  | arguments
  /-- Something that has no elements was to be traversed. -/
  | notIterable
  /-- Something that cannot be compared was used as a key. -/
  | notHashable
  /-- Something that is no pair was to become an entry of a map. -/
  | notAPair
  /-- An attribute map was to be changed in place. -/
  | readOnly
  /-- The value has no such operation. -/
  | noSuchOperation
  /-- There is no kind of this name. -/
  | noSuchKind
  /-- The index lies outside the batch. -/
  | indexOutOfRange
  /-- The dictionary has no such key. -/
  | noSuchKey
  /-- The numbers name no date and time. -/
  | noSuchDateTime
  /-- The text is no floating-point numeral. -/
  | noSuchNumber
  /-- The integer does not fit the field of the wire format. -/
  | notWireInteger
  /-- The text holds a surrogate, for which UTF-8 has no form. -/
  | surrogate
  /-- A fraction of a second beyond all floating-point numbers. -/
  | infiniteFraction
  /-- An integer beyond all floating-point numbers. -/
  | infiniteInteger
  /-- A division by zero. -/
  | divisionByZero
  /-- What came back from the codec is not what was sent, or not as much of it. -/
  | roundTripMismatch
  deriving DecidableEq

/-- The wording of those misuses that have one. -/
def Misuse.message : Misuse → Option String
  | notAnEvent => some "Only CloudEvent objects can be encoded"
  | notBytes => some "Only bytes-like objects can be decoded"
  | limitNotInteger => some "`max_message_size` must be an integer."
  | limitNotPositive => some "`max_message_size` must be a positive number of bytes."
  | _ => none

/-! ### All errors -/

inductive Error where
  /-- Rules of the event model are broken. -/
  | invalid (violations : List Violation)
  /-- An attribute was to be set under the name of a required one. -/
  | reservedName (name : String)
  /-- An attribute is not set. -/
  | notSet (name : String)
  /-- An attribute value was read as another kind. -/
  | kindMismatch (expected actual : AttributeKind)
  /-- A payload was read as another kind, or there is none. -/
  | dataMismatch (expected : DataKind) (actual : Option DataKind)
  /-- Bytes do not decode. -/
  | decode (error : DecodeError)
  /-- Untyped input has the wrong shape for a model. -/
  | shape (model : Model) (issues : List Issue)
  /-- The call makes no sense. -/
  | misuse (cause : Misuse)
  deriving DecidableEq

/-- The wording of an error. Issues are reported by place and kind and have none. -/
def Error.message : Error → Option String
  | invalid violations => some (Violation.report violations)
  | reservedName name => some (Violation.reservedName name).message
  | notSet name => some s!"attribute '{name}' is not set"
  | kindMismatch expected actual =>
    some s!"expected {expected.name} but value holds {actual.name}"
  | dataMismatch expected actual =>
    some ("expected " ++ expected.name ++ " but value holds "
      ++ (actual.map DataKind.name).getD "no value")
  | decode error => some error.message
  | shape _ _ => none
  | misuse cause => cause.message

end CloudEvents
