import CloudEvents.Bytes
import CloudEvents.Error
import CloudEvents.Timestamp

/-!
# Attribute values

An optional attribute has a value of exactly one of seven kinds. Three kinds hold text and differ
in what the text means, so the kind is part of the value: a string and a URI of the same text are
different values, and reading one as the other is an error rather than a conversion.
-/

namespace CloudEvents

/-- The value of an optional attribute. -/
inductive AttributeValue (τ : Type := String) where
  | boolean (value : Bool)
  | integer (value : Int)
  | string (value : τ)
  | bytes (value : Bytes)
  | uri (value : τ)
  | uriRef (value : τ)
  | timestamp (value : Timestamp)
  deriving DecidableEq

namespace AttributeValue

variable {τ : Type}

def kind : AttributeValue τ → AttributeKind
  | boolean _ => .boolean
  | integer _ => .integer
  | string _ => .string
  | bytes _ => .bytes
  | uri _ => .uri
  | uriRef _ => .uriRef
  | timestamp _ => .timestamp

def isKind (v : AttributeValue) (kind : AttributeKind) : Bool := v.kind = kind

/-! ### Rules -/

def minInteger : Int := -2147483648

def maxInteger : Int := 2147483647

/-- Integers have 32 bits and timestamps name an instant; the other kinds hold any value. -/
def Valid : AttributeValue τ → Prop
  | integer i => minInteger ≤ i ∧ i ≤ maxInteger
  | timestamp t => t.Valid
  | _ => True

def violations : AttributeValue τ → List Violation
  | integer i => if minInteger ≤ i ∧ i ≤ maxInteger then [] else [.integerRange i]
  | timestamp t => t.violations
  | _ => []

theorem violations_eq_nil_iff {v : AttributeValue τ} : v.violations = [] ↔ v.Valid := by
  cases v with
  | integer i => simp [violations, Valid]
  | timestamp t => exact Timestamp.violations_eq_nil_iff
  | _ => simp [violations, Valid]

instance (v : AttributeValue τ) : Decidable v.Valid := decidable_of_iff _ violations_eq_nil_iff

/-- The value itself, or the rules it breaks. -/
def check (v : AttributeValue) : Except (List Violation) AttributeValue :=
  Violation.accept v v.violations

theorem check_eq_ok_iff {v w : AttributeValue} : v.check = .ok w ↔ v.Valid ∧ v = w := by
  rw [check, Violation.accept_eq_ok_iff, violations_eq_nil_iff]

/-! ### Reading as a kind -/

def asBoolean : AttributeValue → Except Error Bool
  | boolean b => .ok b
  | v => .error (.kindMismatch .boolean v.kind)

def asInteger : AttributeValue → Except Error Int
  | integer i => .ok i
  | v => .error (.kindMismatch .integer v.kind)

def asString : AttributeValue → Except Error String
  | string s => .ok s
  | v => .error (.kindMismatch .string v.kind)

def asBytes : AttributeValue → Except Error Bytes
  | bytes b => .ok b
  | v => .error (.kindMismatch .bytes v.kind)

def asUri : AttributeValue → Except Error String
  | uri s => .ok s
  | v => .error (.kindMismatch .uri v.kind)

def asUriRef : AttributeValue → Except Error String
  | uriRef s => .ok s
  | v => .error (.kindMismatch .uriRef v.kind)

def asTimestamp : AttributeValue → Except Error Timestamp
  | timestamp t => .ok t
  | v => .error (.kindMismatch .timestamp v.kind)

end AttributeValue

end CloudEvents
