import CloudEvents.Vocabulary

/-!
# Broken rules

A value that breaks a rule of the event model is refused with the list of all rules it breaks.
`Violation` says which rule and with what, `Violation.message` words it, and nothing but the wording
depends on text: a caller that wants to know why asks the constructor.

Two messages quote a text that came from outside, the timestamp text or the date-time that could
not be converted. They carry that text as it was written.
-/

namespace CloudEvents

/-- One broken rule. -/
inductive Violation where
  /-- A required attribute is missing or empty. -/
  | required (field : RequiredField)
  /-- An entry of the attribute map has the empty name. -/
  | emptyName
  /-- An entry of the attribute map has the name of a required attribute. -/
  | reservedName (name : String)
  /-- A value of another type was given for an attribute of this kind. -/
  | attributeType (kind : AttributeKind) (found : String)
  /-- An integer attribute lies outside the 32-bit range. -/
  | integerRange (value : Int)
  /-- A value of another type was given for a payload of this kind. -/
  | dataType (kind : DataKind) (found : String)
  /-- Several payloads were given at once. -/
  | severalPayloads (kinds : List DataKind)
  /-- The seconds of a timestamp lie outside years 1 to 9999. -/
  | secondsRange (seconds : Int)
  /-- The nanoseconds of a timestamp are negative or a whole second. -/
  | nanosRange (nanos : Int)
  /-- A date-time names no instant because its offset is unknown. -/
  | unknownOffset
  /-- A date-time lies outside years 1 to 9999 once it is taken to UTC. -/
  | unrepresentable (dateTime : String)
  /-- A text is no RFC 3339 date-time. -/
  | notRfc3339 (text : String)
  /-- An encoding is longer than the codec allows. -/
  | encodedSize (size limit : Nat)
  deriving DecidableEq

/-- The wording of a broken rule. -/
def Violation.message : Violation → String
  | required field => s!"required attribute '{field.name}' must be a non-empty string"
  | emptyName => "attribute names must be non-empty"
  | reservedName name => s!"attribute name '{name}' is reserved for a required attribute"
  | attributeType kind found =>
    s!"{kind.name} attribute requires {kind.requiredType}, got {found}"
  | integerRange value => s!"integer attribute {value} does not fit in 32 bits"
  | dataType kind found => s!"{kind.name} data requires {kind.requiredType}, got {found}"
  | severalPayloads kinds =>
    "at most one data member may be set, got " ++ ", ".intercalate (kinds.map DataKind.name)
  | secondsRange seconds => s!"timestamp seconds {seconds} outside 0001-01-01..9999-12-31"
  | nanosRange nanos => s!"timestamp nanos {nanos} outside 0..999999999"
  | unknownOffset => "timestamp datetime must be timezone-aware"
  | unrepresentable dateTime => s!"'{dateTime}' cannot be represented as a timestamp"
  | notRfc3339 text => s!"'{text}' is not an RFC 3339 timestamp"
  | encodedSize size limit => s!"encoded size {size} exceeds max_message_size {limit}"

/-- The wording of all broken rules of one value. -/
def Violation.report (violations : List Violation) : String :=
  "; ".intercalate (violations.map Violation.message)

/-- A value beside the rules it breaks: accepted as it is when there are none. -/
def Violation.accept {α : Type} (value : α) (violations : List Violation) :
    Except (List Violation) α :=
  if violations.isEmpty then .ok value else .error violations

theorem Violation.accept_eq_ok_iff {α : Type} {value result : α} {violations : List Violation} :
    accept value violations = .ok result ↔ violations = [] ∧ value = result := by
  cases violations <;> simp [accept]

theorem Violation.accept_eq_error_iff {α : Type} {value : α} {violations broken : List Violation} :
    accept value violations = .error broken ↔ violations ≠ [] ∧ violations = broken := by
  cases violations <;> simp [accept]

end CloudEvents
